import Marble.Comparison
import Marble.Element
import Mathlib.Data.List.Basic

/-! The first difference between two timelines, and all of them. Both accounts agree, as far as the
comparer decides about the pairs that only the second one looks at. -/
namespace Marble

variable {α ε : Type} {compare : Compare α} {grid : TimeGrid} {e a : Event α ε}
  {expected actual : List (Event α ε)} {pairs later : List (Event α ε × Event α ε)} {index : Nat}
  {ms : List Mismatch} {m : Mismatch}

theorem pairwise_zipIdx {β : Type} (l : List β) (n : Nat) : (l.zipIdx n).Pairwise (·.2 < ·.2) := by
  rw [← List.pairwise_map (f := Prod.snd) (R := (· < ·)), List.zipIdx_map_snd]
  exact List.pairwise_lt_range'

/-! ### What only one timeline has -/

section

variable [Shown α] [Shown ε]

/-- The places past the end of the shorter timeline, counted from `index`. Only the longer one shows
anything there. -/
def surplusFrom (index : Nat) (expected actual : List (Event α ε)) : List Mismatch :=
  ((expected.drop actual.length).zipIdx (index + actual.length)).map
      (fun (e, i) => ⟨i, some (text e), none⟩) ++
    ((actual.drop expected.length).zipIdx (index + expected.length)).map
      fun (a, i) => ⟨i, none, some (text a)⟩

theorem surplusFrom_cons_cons :
    surplusFrom index (e :: expected) (a :: actual) = surplusFrom (index + 1) expected actual := by
  simp [surplusFrom, Nat.add_right_comm, ← Nat.add_assoc]

theorem surplusFrom_eq_nil : surplusFrom index expected actual = [] ↔
    actual.length = expected.length := by
  simp [surplusFrom]
  omega

theorem pairwise_surplusFrom :
    (surplusFrom index expected actual).Pairwise (·.index < ·.index) := by
  -- only one of the two parts has any places
  rcases Nat.le_total expected.length actual.length with h | h
  · simpa only [surplusFrom, List.drop_eq_nil_of_le h, List.zipIdx_nil, List.map_nil,
      List.nil_append, List.pairwise_map] using pairwise_zipIdx _ _
  · simpa only [surplusFrom, List.drop_eq_nil_of_le h, List.zipIdx_nil, List.map_nil,
      List.append_nil, List.pairwise_map] using pairwise_zipIdx _ _

theorem le_of_mem_surplusFrom (h : m ∈ surplusFrom index expected actual) :
    index + min expected.length actual.length ≤ m.index := by
  simp only [surplusFrom, List.mem_append, List.mem_map, Prod.exists] at h
  rcases h with ⟨e, i, hmem, rfl⟩ | ⟨a, i, hmem, rfl⟩
  all_goals
    have := List.le_snd_of_mem_zipIdx hmem
    simp only at this ⊢
    omega

end

/-! ### Pairs that are decided -/

variable [BEq ε]

/-- A comparer decides about some pairs of events. -/
def Decided (compare : Compare α) (grid : TimeGrid) (pairs : List (Event α ε × Event α ε)) : Prop :=
  ∀ p ∈ pairs, ∃ same, p.1.agrees compare grid p.2 = .ok same

theorem decided_cons : Decided compare grid ((e, a) :: pairs) ↔
    (∃ same, e.agrees compare grid a = .ok same) ∧ Decided compare grid pairs :=
  List.forall_mem_cons

theorem decided_append : Decided compare grid (pairs ++ later) ↔
    Decided compare grid pairs ∧ Decided compare grid later :=
  List.forall_mem_append

/-- How many pairs a comparison has looked at when it fails with an error: none if the lengths
differ. -/
def Error.reached : Error → Nat
  | .eventMismatch index _ _ => index + 1
  | _ => 0

variable [Shown α] [Shown ε]

/-- How a pair is shown at its place, if it differs. -/
def difference? (compare : Compare α) (grid : TimeGrid) :
    (Event α ε × Event α ε) × Nat → Option Mismatch
  | ((e, a), i) =>
    match e.agrees compare grid a with
    | .ok false => some ⟨i, some (text e), some (text a)⟩
    | _ => none

/-- The pairs that differ, in order; their places are counted from `index`. -/
def differing (compare : Compare α) (grid : TimeGrid) (index : Nat)
    (pairs : List (Event α ε × Event α ε)) : List Mismatch :=
  (pairs.zipIdx index).filterMap (difference? compare grid)

theorem differing_cons {same : Bool} (h : e.agrees compare grid a = .ok same) :
    differing compare grid index ((e, a) :: pairs) =
      if same then differing compare grid (index + 1) pairs
      else ⟨index, some (text e), some (text a)⟩ :: differing compare grid (index + 1) pairs := by
  cases same <;> simp [differing, difference?, h]

theorem snd_of_difference {p : (Event α ε × Event α ε) × Nat}
    (h : difference? compare grid p = some m) : p.2 = m.index := by
  obtain ⟨⟨e, a⟩, i⟩ := p
  simp only [difference?] at h
  split at h
  · exact congrArg Mismatch.index (Option.some.inj h)
  · cases h

theorem lt_of_mem_differing (h : m ∈ differing compare grid index pairs) :
    m.index < index + pairs.length := by
  obtain ⟨p, hmem, hm⟩ := List.mem_filterMap.mp h
  have := List.snd_lt_add_of_mem_zipIdx hmem
  have := snd_of_difference hm
  omega

theorem pairwise_differing : (differing compare grid index pairs).Pairwise (·.index < ·.index) :=
  (pairwise_zipIdx pairs index).filterMap _ fun p q hpq m hm n hn => by
    have := snd_of_difference hm
    have := snd_of_difference hn
    omega

/-! ### All differences -/

/-- With one timeline at its end, all that is left of the other is surplus. -/
theorem mismatchesFrom_of_ended (h : expected = [] ∨ actual = []) :
    mismatchesFrom compare grid index expected actual =
      .ok (surplusFrom index expected actual) := by
  rcases h with rfl | rfl
  · simp [mismatchesFrom, surplusFrom]
  · cases expected <;> simp [mismatchesFrom, surplusFrom]

theorem mismatchesFrom_cons_eq_ok :
    mismatchesFrom compare grid index (e :: expected) (a :: actual) = .ok ms ↔
      ∃ same rest, e.agrees compare grid a = .ok same ∧
        mismatchesFrom compare grid (index + 1) expected actual = .ok rest ∧
        ms = if same then rest else ⟨index, some (text e), some (text a)⟩ :: rest := by
  rw [mismatchesFrom]
  cases e.agrees compare grid a with
  | error cause => simp [bind, Except.bind]
  | ok same =>
    cases mismatchesFrom compare grid (index + 1) expected actual with
    | error cause => simp [bind, Except.bind]
    | ok rest => simp [bind, Except.bind, pure, Except.pure, eq_comm]

/-- The differences are found if the comparer decides about every pair: the pairs that differ, and
then what only one timeline has. -/
theorem mismatchesFrom_eq_ok :
    mismatchesFrom compare grid index expected actual = .ok ms ↔
      Decided compare grid (expected.zip actual) ∧
        ms = differing compare grid index (expected.zip actual) ++
          surplusFrom index expected actual := by
  induction expected generalizing actual index ms with
  | nil => simp [mismatchesFrom_of_ended, Decided, differing, eq_comm]
  | cons e expected ih =>
    cases actual with
    | nil => simp [mismatchesFrom_of_ended, Decided, differing, eq_comm]
    | cons a actual =>
      rw [mismatchesFrom_cons_eq_ok, List.zip_cons_cons, decided_cons, surplusFrom_cons_cons]
      constructor
      · rintro ⟨same, rest, hsame, hrest, rfl⟩
        obtain ⟨hdecided, rfl⟩ := ih.mp hrest
        refine ⟨⟨⟨same, hsame⟩, hdecided⟩, ?_⟩
        rw [differing_cons hsame]
        cases same <;> rfl
      · rintro ⟨⟨⟨same, hsame⟩, hdecided⟩, rfl⟩
        refine ⟨same, _, hsame, ih.mpr ⟨hdecided, rfl⟩, ?_⟩
        rw [differing_cons hsame]
        cases same <;> rfl

/-! ### The first difference -/

theorem checkPairs_cons_same (h : e.agrees compare grid a = .ok true) :
    checkPairs compare grid index (e :: expected) (a :: actual) =
      checkPairs compare grid (index + 1) expected actual := by
  simp [checkPairs, h]

/-- No difference is found if every pair agrees. -/
theorem checkPairs_eq_ok : checkPairs compare grid index expected actual = .ok () ↔
    Decided compare grid (expected.zip actual) ∧
      differing compare grid index (expected.zip actual) = [] := by
  induction expected generalizing actual index with
  | nil => simp [checkPairs, Decided, differing]
  | cons e expected ih =>
    cases actual with
    | nil => simp [checkPairs, Decided, differing]
    | cons a actual =>
      rw [List.zip_cons_cons, decided_cons]
      cases hsame : e.agrees compare grid a with
      | error cause => simp [checkPairs, hsame]
      | ok same =>
        cases same with
        | true => simp [checkPairs_cons_same hsame, differing_cons hsame, ih]
        | false => simp [checkPairs, hsame, differing_cons hsame]

/-- The difference that is found is the first of all, and every pair up to it is decided. -/
theorem checkPairs_eq_failure {cause : Error}
    (h : checkPairs compare grid index expected actual = .error cause)
    (hfailure : cause.isFailure) :
    ∃ k te ta, cause = .eventMismatch (index + k) te ta ∧
      Decided compare grid ((expected.zip actual).take (k + 1)) ∧
      (differing compare grid index (expected.zip actual)).head? =
        some ⟨index + k, some te, some ta⟩ := by
  induction expected generalizing actual index with
  | nil => simp [checkPairs] at h
  | cons e expected ih =>
    cases actual with
    | nil => simp [checkPairs] at h
    | cons a actual =>
      cases hsame : e.agrees compare grid a with
      | error stopped =>
        obtain rfl : .comparer stopped = cause := by simpa [checkPairs, hsame] using h
        simp [Error.isFailure] at hfailure
      | ok same =>
        rw [List.zip_cons_cons, differing_cons hsame]
        cases same with
        | true =>
          rw [checkPairs_cons_same hsame] at h
          obtain ⟨k, te, ta, rfl, hdecided, hfirst⟩ := ih h
          rw [Nat.add_right_comm] at hfirst ⊢
          exact ⟨k + 1, te, ta, rfl, decided_cons.mpr ⟨⟨true, hsame⟩, hdecided⟩, hfirst⟩
        | false =>
          obtain rfl : .eventMismatch index (text e) (text a) = cause := by
            simpa [checkPairs, hsame] using h
          exact ⟨0, text e, text a, rfl, decided_cons.mpr ⟨⟨false, hsame⟩, by simp [Decided]⟩, rfl⟩

/-- A pair that stops the search for the first difference stops the search for all of them. -/
theorem mismatchesFrom_of_comparer {cause : ComparerError}
    (h : checkPairs compare grid index expected actual = .error (.comparer cause)) :
    mismatchesFrom compare grid index expected actual = .error cause := by
  induction expected generalizing actual index with
  | nil => simp [checkPairs] at h
  | cons e expected ih =>
    cases actual with
    | nil => simp [checkPairs] at h
    | cons a actual =>
      cases hsame : e.agrees compare grid a with
      | error stopped =>
        obtain rfl : stopped = cause := by simpa [checkPairs, hsame] using h
        simp [mismatchesFrom, hsame, bind, Except.bind]
      | ok same =>
        cases same with
        | true =>
          rw [checkPairs_cons_same hsame] at h
          simp [mismatchesFrom, hsame, ih h, bind, Except.bind]
        | false => simp [checkPairs, hsame] at h

/-! ### Both accounts -/

theorem checkEvents_eq_error {cause : Error}
    (h : checkEvents compare grid actual expected = .error cause) :
    (actual.length ≠ expected.length ∧ cause = .countMismatch expected.length actual.length) ∨
      (actual.length = expected.length ∧
        checkPairs compare grid 0 expected actual = .error cause) := by
  unfold checkEvents at h
  split at h
  next hne => exact .inl ⟨hne, (Except.error.inj h).symm⟩
  next heq => exact .inr ⟨not_not.mp heq, h⟩

theorem checkEvents_eq_ok : checkEvents compare grid actual expected = .ok () ↔
    actual.length = expected.length ∧ checkPairs compare grid 0 expected actual = .ok () := by
  unfold checkEvents
  split <;> simp_all

/-- How the first difference between two timelines goes with all differences that are found. -/
structure Concordant (compare : Compare α) (grid : TimeGrid) (actual expected : List (Event α ε)) :
    Prop where
  /-- There is no first difference exactly if no difference is found. -/
  agreed : checkEvents compare grid actual expected = .ok () ↔
    mismatches compare grid actual expected = .ok []
  /-- The first pair that differs is shown first. -/
  first : ∀ i te ta ms,
    checkEvents compare grid actual expected = .error (.eventMismatch i te ta) →
    mismatches compare grid actual expected = .ok ms →
    ms.head? = some ⟨i, some te, some ta⟩
  /-- The places are shown in order, and those from the end of the shorter timeline on are the
  surplus of the longer one; so also if the lengths are what differs first. -/
  ordered : ∀ ms, mismatches compare grid actual expected = .ok ms →
    ms.Pairwise (·.index < ·.index) ∧
      ms.filter (min actual.length expected.length ≤ ·.index) = surplusFrom 0 expected actual
  /-- Where the comparer cannot decide about the first difference, it stops both accounts. -/
  undecided : ∀ cause, checkEvents compare grid actual expected = .error (.comparer cause) →
    mismatches compare grid actual expected = .error cause

theorem checkEvents_concordant (compare : Compare α) (grid : TimeGrid)
    (actual expected : List (Event α ε)) : Concordant compare grid actual expected where
  agreed := by
    rw [checkEvents_eq_ok, checkPairs_eq_ok, mismatches, mismatchesFrom_eq_ok]
    simp only [List.nil_eq, List.append_eq_nil_iff, surplusFrom_eq_nil]
    tauto
  first i te ta ms hcheck hfound := by
    obtain ⟨-, hne⟩ | ⟨-, hpairs⟩ := checkEvents_eq_error hcheck
    · cases hne
    obtain ⟨k, te, ta, heq, -, hfirst⟩ := checkPairs_eq_failure hpairs rfl
    obtain ⟨rfl, rfl, rfl⟩ := Error.eventMismatch.inj heq
    obtain ⟨-, rfl⟩ := mismatchesFrom_eq_ok.mp hfound
    rw [List.head?_append, hfirst]
    rfl
  ordered ms hfound := by
    obtain ⟨-, rfl⟩ := mismatchesFrom_eq_ok.mp hfound
    have hbefore : ∀ m ∈ differing compare grid 0 (expected.zip actual),
        m.index < min actual.length expected.length := fun m hm => by
      simpa [Nat.min_comm] using lt_of_mem_differing hm
    have hbehind : ∀ m ∈ surplusFrom 0 expected actual,
        min actual.length expected.length ≤ m.index := fun m hm => by
      simpa [Nat.min_comm] using le_of_mem_surplusFrom hm
    refine ⟨List.pairwise_append.mpr ⟨pairwise_differing, pairwise_surplusFrom, ?_⟩, ?_⟩
    · exact fun m hm n hn => Nat.lt_of_lt_of_le (hbefore m hm) (hbehind n hn)
    · rw [List.filter_append, List.filter_eq_nil_iff.mpr, List.filter_eq_self.mpr, List.nil_append]
      · simpa using hbehind
      · simpa using hbefore
  undecided cause hcheck := by
    obtain ⟨-, hne⟩ | ⟨-, hpairs⟩ := checkEvents_eq_error hcheck
    · cases hne
    · exact mismatchesFrom_of_comparer hpairs

/-- A comparison that has failed is followed by a report of the differences if, and only if, the
comparer decides about the pairs that the comparison has not reached. -/
theorem exists_mismatch_iff_decided {cause : Error}
    (h : checkEvents compare grid actual expected = .error cause) (hfailure : cause.isFailure) :
    (∃ m ms, mismatches compare grid actual expected = .ok (m :: ms)) ↔
      Decided compare grid ((expected.zip actual).drop cause.reached) := by
  obtain ⟨hreached, hsome⟩ : Decided compare grid ((expected.zip actual).take cause.reached) ∧
      differing compare grid 0 (expected.zip actual) ++ surplusFrom 0 expected actual ≠ [] := by
    obtain ⟨hne, rfl⟩ | ⟨-, hpairs⟩ := checkEvents_eq_error h
    · refine ⟨by simp [Error.reached, Decided], fun hnil => hne ?_⟩
      exact surplusFrom_eq_nil.mp (List.append_eq_nil_iff.mp hnil).2
    · obtain ⟨k, te, ta, rfl, hdecided, hfirst⟩ := checkPairs_eq_failure hpairs hfailure
      refine ⟨by simpa [Error.reached] using hdecided, fun hnil => ?_⟩
      rw [(List.append_eq_nil_iff.mp hnil).1] at hfirst
      cases hfirst
  have hall : Decided compare grid (expected.zip actual) ↔
      Decided compare grid ((expected.zip actual).drop cause.reached) := by
    rw [← List.take_append_drop cause.reached (expected.zip actual), decided_append,
      List.take_append_drop]
    exact and_iff_right hreached
  rw [← hall]
  constructor
  · rintro ⟨m, ms, hfound⟩
    exact (mismatchesFrom_eq_ok.mp hfound).1
  · intro hdecided
    obtain ⟨m, ms, hms⟩ := List.exists_cons_of_ne_nil hsome
    exact ⟨m, ms, mismatchesFrom_eq_ok.mpr ⟨hdecided, hms.symm⟩⟩

/-- Thirteen cannot be compared, but it stands behind the end of the other timeline. -/
theorem exists_mismatch_before_thirteen :
    checkEvents (ε := SequenceError) Comparer.refusingThirteen.compare .exact
        [⟨.zero, .next 2⟩] [⟨.zero, .next 1⟩, ⟨.clamp 10, .next 13⟩] =
          .error (.countMismatch 2 1) ∧
      ∃ m ms, mismatches (ε := SequenceError) Comparer.refusingThirteen.compare .exact
        [⟨.zero, .next 2⟩] [⟨.zero, .next 1⟩, ⟨.clamp 10, .next 13⟩] = .ok (m :: ms) := by
  have hfailed : checkEvents (ε := SequenceError) Comparer.refusingThirteen.compare .exact
      [⟨.zero, .next 2⟩] [⟨.zero, .next 1⟩, ⟨.clamp 10, .next 13⟩] =
        .error (.countMismatch 2 1) := rfl
  refine ⟨hfailed, (exists_mismatch_iff_decided hfailed rfl).mpr ?_⟩
  exact decided_cons.mpr ⟨⟨false, rfl⟩, by simp [Decided]⟩

/-- A pair that cannot be compared leaves a failed comparison without a report: behind the first
pair that differs, or anywhere if the lengths differ. -/
theorem failure_without_report :
    (checkEvents (ε := SequenceError) Comparer.refusingThirteen.compare .exact
        [⟨.zero, .next 2⟩, ⟨.clamp 10, .next 13⟩] [⟨.zero, .next 1⟩, ⟨.clamp 10, .next 13⟩] =
          .error (.eventMismatch 0 "Next(1)@0" "Next(2)@0") ∧
      mismatches (ε := SequenceError) Comparer.refusingThirteen.compare .exact
        [⟨.zero, .next 2⟩, ⟨.clamp 10, .next 13⟩] [⟨.zero, .next 1⟩, ⟨.clamp 10, .next 13⟩] =
          .error (.undecided "cannot compare 13 with 13")) ∧
    (checkEvents (ε := SequenceError) Comparer.refusingThirteen.compare .exact
        [⟨.zero, .next 13⟩] [⟨.zero, .next 13⟩, ⟨.clamp 10, .next 1⟩] =
          .error (.countMismatch 2 1) ∧
      mismatches (ε := SequenceError) Comparer.refusingThirteen.compare .exact
        [⟨.zero, .next 13⟩] [⟨.zero, .next 13⟩, ⟨.clamp 10, .next 1⟩] =
          .error (.undecided "cannot compare 13 with 13")) := by
  decide +kernel

end Marble
