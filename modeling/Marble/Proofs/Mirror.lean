import Marble.Proofs.Differences

/-! Expected and actual exchange their places: a comparison answers as before, seen from the other
side, if its comparer is asked the other way round. So it does for comparers of lists of any
depth. -/
namespace Marble

variable {α ε : Type} {compare : Compare α} {grid : TimeGrid} {index : Nat}

/-! ### The other side -/

/-- A comparer asked with its arguments exchanged. -/
def Compare.swap (compare : Compare α) : Compare α := fun expected actual => compare actual expected

/-- An error seen from the other side. -/
def Error.swap : Error → Error
  | .countMismatch expected actual => .countMismatch actual expected
  | .eventMismatch index expected actual => .eventMismatch index actual expected
  | cause => cause

/-- A difference seen from the other side. -/
def Mismatch.swap (m : Mismatch) : Mismatch := ⟨m.index, m.actual, m.expected⟩

/-! ### Lists of any depth -/

/-- Lists of lists of values, and so on, as many lists deep as the depth says. -/
def Nested (α : Type) : (depth : Nat) → Type
  | 0 => α
  | depth + 1 => List (Nested α depth)

instance Nested.shown [Shown α] : (depth : Nat) → Shown (Nested α depth)
  | 0 => inferInstanceAs (Shown α)
  | depth + 1 =>
    let _ : Shown (Nested α depth) := shown depth
    inferInstanceAs (Shown (List (Nested α depth)))

/-- Compares nested lists element by element, down to the values. -/
def Compare.nested (compare : Compare α) : (depth : Nat) → Compare (Nested α depth)
  | 0 => compare
  | depth + 1 => .elementWise (compare.nested depth)

theorem elementWise_swap (compare : Compare α) :
    compare.swap.elementWise = compare.elementWise.swap := by
  funext expected actual
  induction expected generalizing actual with
  | nil => cases actual <;> rfl
  | cons e expected ih =>
    cases actual with
    | nil => rfl
    | cons a actual =>
      have hrest : compare.swap.elementWise expected actual = compare.elementWise actual expected :=
        ih actual
      simp only [Compare.swap, Compare.elementWise] at hrest ⊢
      rw [hrest]

/-- Exchanging the lists exchanges the values at every depth. -/
theorem nested_swap (compare : Compare α) (depth : Nat) :
    compare.swap.nested depth = (compare.nested depth).swap := by
  induction depth with
  | zero => rfl
  | succ depth ih =>
    rw [Compare.nested, ih]
    exact elementWise_swap (compare.nested depth)

/-! ### Comparisons -/

variable [BEq ε]

theorem agrees_swap (hsymm : ∀ x y : ε, (x == y) = (y == x)) (e a : Event α ε) :
    a.agrees compare.swap grid e = e.agrees compare grid a := by
  obtain ⟨s, n⟩ := e
  obtain ⟨t, m⟩ := a
  by_cases htime : s.truncate grid = t.truncate grid
  · cases n <;> cases m <;> simp [Timed.agrees, Compare.swap, htime, hsymm]
  · simp [Timed.agrees, htime, Ne.symm htime]

variable [Shown α] [Shown ε] {expected actual : List (Event α ε)}

theorem checkPairs_swap (hsymm : ∀ x y : ε, (x == y) = (y == x)) :
    checkPairs compare.swap grid index actual expected =
      (checkPairs compare grid index expected actual).mapError Error.swap := by
  induction expected generalizing actual index with
  | nil => cases actual <;> rfl
  | cons e expected ih =>
    cases actual with
    | nil => rfl
    | cons a actual =>
      rw [checkPairs, checkPairs, agrees_swap hsymm]
      cases e.agrees compare grid a with
      | error cause => rfl
      | ok same =>
        cases same with
        | true => exact ih
        | false => rfl

theorem mismatchesFrom_swap (hsymm : ∀ x y : ε, (x == y) = (y == x)) :
    mismatchesFrom compare.swap grid index actual expected =
      (mismatchesFrom compare grid index expected actual).map (List.map Mismatch.swap) := by
  induction expected generalizing actual index with
  | nil => cases actual <;> simp [mismatchesFrom, Mismatch.swap, Except.map]
  | cons e expected ih =>
    cases actual with
    | nil => simp [mismatchesFrom, Mismatch.swap, Except.map]
    | cons a actual =>
      rw [mismatchesFrom, mismatchesFrom, agrees_swap hsymm, ih]
      cases e.agrees compare grid a with
      | error cause => rfl
      | ok same =>
        cases mismatchesFrom compare grid (index + 1) expected actual with
        | error cause => rfl
        | ok rest => cases same <;> rfl

/-- A comparer answers from the other side as another one does: the first difference is the same
with its sides exchanged, and so is each of all differences; what cannot be decided is the same. -/
structure Mirrors (ε : Type) [BEq ε] [Shown α] [Shown ε] (compare compare' : Compare α)
    (grid : TimeGrid) : Prop where
  first (actual expected : List (Event α ε)) :
    checkEvents compare' grid expected actual =
      (checkEvents compare grid actual expected).mapError Error.swap
  all (actual expected : List (Event α ε)) :
    mismatches compare' grid expected actual =
      (mismatches compare grid actual expected).map (List.map Mismatch.swap)

theorem mirrors_swap (hsymm : ∀ x y : ε, (x == y) = (y == x)) (compare : Compare α)
    (grid : TimeGrid) : Mirrors ε compare compare.swap grid where
  first actual expected := by
    unfold checkEvents
    by_cases hlength : actual.length = expected.length
    · simp only [hlength, ne_eq, not_true_eq_false, if_false, checkPairs_swap hsymm]
    · simp only [hlength, Ne.symm hlength, ne_eq, not_false_eq_true, if_true]
      rfl
  all actual expected := mismatchesFrom_swap hsymm

/-- Expected and actual are never mixed up, whatever the comparer: values, or lists of any depth,
are compared from the other side as its exchanged form does. -/
theorem mirrors_nested (hsymm : ∀ x y : ε, (x == y) = (y == x)) (compare : Compare α)
    (grid : TimeGrid) :
    Mirrors ε compare compare.swap grid ∧
      ∀ depth, Mirrors ε (compare.nested depth) (compare.swap.nested depth) grid := by
  refine ⟨mirrors_swap hsymm compare grid, fun depth => ?_⟩
  rw [nested_swap]
  exact mirrors_swap hsymm (compare.nested depth) grid

/-- Whether numbers reach those expected is not the same from the other side: three is not reached
by two, and this is what the exchanged comparer says of two and three. -/
theorem mirrors_nested_atLeast :
    (∀ x y : SequenceError, (x == y) = (y == x)) ∧
      checkEvents (ε := SequenceError) (Comparer.atLeast.compare.swap.nested 2) .exact
          [⟨.zero, .next ([[1], [3]] : List (List Int64))⟩]
          [⟨.zero, .next ([[2], [2]] : List (List Int64))⟩] =
        .error (.eventMismatch 0 "Next([[2], [2]])@0" "Next([[1], [3]])@0") := by
  have hsymm : ∀ x y : SequenceError, (x == y) = (y == x) := fun _ _ => BEq.comm
  have hmirrors := (mirrors_nested hsymm Comparer.atLeast.compare .exact).2 2
  exact ⟨hsymm, (hmirrors.first _ _).trans (by decide +kernel)⟩

end Marble
