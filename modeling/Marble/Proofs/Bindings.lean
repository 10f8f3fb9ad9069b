import Marble.Proofs.Refinement

/-! What a legend binds, read off the pairs it is made of. -/
namespace Marble

namespace Legend

variable {α ε φ : Type} {pairs : List (Char × LegendEntry α ε φ)} {l l' : Legend α ε φ} {c : Char}
  {entry : LegendEntry α ε φ} {entries : List (LegendKey × LegendEntry α ε φ)} {key k : LegendKey}

/-- One of the pairs binds a character to an entry. Case does not count; a token is bound to
nothing. -/
def Binds (pairs : List (Char × LegendEntry α ε φ)) (c : Char) (entry : LegendEntry α ε φ) : Prop :=
  c ∉ Token.reserved ∧ ∃ p ∈ pairs, Text.lowerCase p.1 = Text.lowerCase c ∧ p.2 = entry

/-- A legend has the entries of some pairs, and no others, and knows the key of the error among
them. -/
structure Holds (pairs : List (Char × LegendEntry α ε φ)) (l : Legend α ε φ) : Prop where
  free : ∀ p ∈ pairs, p.1 ∉ Token.reserved
  find : ∀ key entry, l.find? key = some entry ↔
    ∃ p ∈ pairs, LegendKey.parse p.1 = .ok key ∧ p.2 = entry
  error : ∀ key, l.errorKey = some key ↔
    ∃ p ∈ pairs, LegendKey.parse p.1 = .ok key ∧ p.2.slot = .error

theorem parse_eq_ok : LegendKey.parse c = .ok key ↔
    c ∉ Token.reserved ∧ key = ⟨Text.lowerCase c⟩ := by
  rw [LegendKey.parse]
  split_ifs with hc
  · simp [hc]
  · simp [hc, eq_comm]

theorem lookup_insertEntry (h : entries.lookup key = none) :
    (insertEntry key entry entries).lookup k =
      if k = key then some entry else entries.lookup k := by
  induction entries with
  | nil => by_cases hk : k = key <;> simp [insertEntry, hk]
  | cons q rest ih =>
    obtain ⟨old, e⟩ := q
    rw [List.lookup_cons] at h
    have hne : key ≠ old := by
      rintro rfl
      simp at h
    have hrest := ih (by simpa [beq_eq_false_iff_ne.mpr hne] using h)
    rw [insertEntry]
    by_cases hlt : key.char < old.char
    · rw [if_pos hlt, List.lookup_cons]
      by_cases hk : k = key
      · simp [hk]
      · simp [hk, beq_eq_false_iff_ne.mpr hk]
    · rw [if_neg hlt, List.lookup_cons, hrest, List.lookup_cons]
      by_cases hk : k = key
      · subst hk
        simp [beq_eq_false_iff_ne.mpr hne]
      · simp [hk]

theorem holds_empty : (empty : Legend α ε φ).Holds [] where
  free := by simp
  find := by simp [empty, find?]
  error := by simp [empty]

/-- One more pair makes one more entry. -/
theorem Holds.add (h : l.Holds pairs) (hadd : l.add c entry = .ok l') :
    l'.Holds (pairs ++ [(c, entry)]) := by
  obtain ⟨key, hkey, hfind, herror, rfl⟩ := add_eq_ok.mp hadd
  have hlast : ∀ P : Char × LegendEntry α ε φ → Prop,
      (∃ p ∈ pairs ++ [(c, entry)], P p) ↔ (∃ p ∈ pairs, P p) ∨ P (c, entry) := by
    intro P
    simp only [List.mem_append, List.mem_singleton, or_and_right, exists_or, exists_eq_left]
  have hnew : ∀ k, LegendKey.parse c = .ok k ↔ k = key := by
    intro k
    rw [hkey, Except.ok.injEq, eq_comm]
  constructor
  · intro p hp
    rcases List.mem_append.mp hp with hp | hp
    · exact h.free p hp
    · obtain rfl := List.mem_singleton.mp hp
      exact (parse_eq_ok.mp hkey).1
  · intro k e
    rw [hlast, ← h.find, hnew, find?, lookup_insertEntry hfind]
    by_cases hk : k = key
    · subst hk
      simp [hfind]
    · simp [hk, find?]
  · intro k
    rw [hlast, ← h.error, hnew]
    by_cases hslot : entry.slot = .error
    · simp [hslot, herror hslot, eq_comm]
    · simp [hslot]

theorem Holds.addAll (h : l.Holds pairs) {more : List (Char × LegendEntry α ε φ)}
    (hadd : more.foldlM (fun l p => l.add p.1 p.2) l = .ok l') : l'.Holds (pairs ++ more) := by
  induction more generalizing l pairs with
  | nil =>
    obtain rfl : l = l' := Except.ok.inj hadd
    rwa [List.append_nil]
  | cons p rest ih =>
    rw [List.foldlM_cons] at hadd
    cases hone : l.add p.1 p.2 with
    | error => rw [hone] at hadd; cases hadd
    | ok l₁ =>
      rw [hone] at hadd
      rw [List.append_cons]
      exact ih (h.add hone) hadd

theorem holds_ofPairs (h : ofPairs pairs = .ok l) : l.Holds pairs := holds_empty.addAll h

/-- A legend binds what its pairs bind. -/
theorem get?_ofPairs (h : ofPairs pairs = .ok l) : l.get? c = some entry ↔ Binds pairs c entry := by
  have hholds := holds_ofPairs h
  rw [get?, LegendKey.parse, Binds]
  by_cases hc : c ∈ Token.reserved
  · simp [hc, Except.toOption]
  · simp only [hc, if_false, not_false_eq_true, true_and]
    change l.find? ⟨Text.lowerCase c⟩ = some entry ↔ _
    rw [hholds.find]
    refine exists_congr fun p => and_congr_right fun hp => and_congr_left fun _ => ?_
    rw [parse_eq_ok, LegendKey.mk.injEq, eq_comm (a := Text.lowerCase c)]
    exact and_iff_right (hholds.free p hp)

theorem get?_ofPairs_eq_none (h : ofPairs pairs = .ok l) :
    l.get? c = none ↔ ∀ entry, ¬ Binds pairs c entry := by
  rw [Option.eq_none_iff_forall_ne_some]
  exact forall_congr' fun entry => not_congr (get?_ofPairs h)

/-- The error of a legend is that of its one pair with an error. -/
theorem error?_ofPairs (h : ofPairs pairs = .ok l) {e : ε} :
    l.error? = some e ↔ ∃ p ∈ pairs, p.2 = .error e := by
  have hholds := holds_ofPairs h
  rw [error?_eq_some, Option.bind_eq_some_iff]
  constructor
  · rintro ⟨key, -, hfind⟩
    obtain ⟨p, hp, -, he⟩ := (hholds.find key _).mp hfind
    exact ⟨p, hp, he⟩
  · rintro ⟨p, hp, he⟩
    have hkey := parse_eq_ok.mpr ⟨hholds.free p hp, rfl⟩
    exact ⟨_, (hholds.error _).mpr ⟨p, hp, hkey, by rw [he]; rfl⟩,
      (hholds.find _ _).mpr ⟨p, hp, hkey, he⟩⟩

theorem error?_ofPairs_eq_none (h : ofPairs pairs = .ok l) :
    l.error? = none ↔ ∀ p ∈ pairs, p.2.slot ≠ .error := by
  rw [Option.eq_none_iff_forall_ne_some]
  constructor
  · intro hnone p hp hslot
    obtain ⟨c, entry⟩ := p
    cases entry with
    | error e => exact hnone e ((error?_ofPairs h).mpr ⟨_, hp, rfl⟩)
    | _ => cases hslot
  · intro hpairs e he
    obtain ⟨p, hp, hentry⟩ := (error?_ofPairs h).mp he
    exact hpairs p hp (by rw [hentry]; rfl)

end Legend

end Marble
