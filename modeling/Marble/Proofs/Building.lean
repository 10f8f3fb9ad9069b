import Marble.Proofs.Bindings
import Marble.Proofs.LowerCase
import Mathlib.Data.List.Induction

/-! Which pairs make a legend, what it then says about every character, and which pair spoils a list
that makes none. -/
namespace Marble.Legend

variable {α ε φ : Type} {pairs before : List (Char × LegendEntry α ε φ)} {l : Legend α ε φ}
  {p : Char × LegendEntry α ε φ} {c : Char} {e : LegendError}

/-- The key a pair is for. -/
def keyOf (p : Char × LegendEntry α ε φ) : LegendKey := ⟨Text.lowerCase p.1⟩

/-- Pairs without a token, with a key each, and with one error at most. -/
structure WellFormed (pairs : List (Char × LegendEntry α ε φ)) : Prop where
  free : ∀ p ∈ pairs, p.1 ∉ Token.reserved
  distinct : (pairs.map keyOf).Nodup
  errors : (pairs.countP fun p => p.2.slot = .error) ≤ 1

/-- What is wrong with a pair behind others that are well formed. -/
inductive Spoils (before : List (Char × LegendEntry α ε φ)) (p : Char × LegendEntry α ε φ) :
    LegendError → Prop where
  | reservedKey (h : p.1 ∈ Token.reserved) : Spoils before p (.reservedKey p.1)
  | duplicateKey (hp : p.1 ∉ Token.reserved) (h : keyOf p ∈ before.map keyOf) :
    Spoils before p (.duplicateKey (keyOf p))
  | ambiguousError {q : Char × LegendEntry α ε φ} (hp : p.1 ∉ Token.reserved)
      (hnew : keyOf p ∉ before.map keyOf) (hq : q ∈ before) (hfirst : q.2.slot = .error)
      (h : p.2.slot = .error) : Spoils before p (.ambiguousError (keyOf q) (keyOf p))

/-- A legend that says what some pairs say, and nothing else. -/
structure Reflects (pairs : List (Char × LegendEntry α ε φ)) (l : Legend α ε φ) : Prop where
  size : l.size = pairs.length
  keys : l.keys.Perm (pairs.map keyOf)
  ascending : l.keys.Pairwise fun j k => j.char < k.char
  get? : ∀ c entry, l.get? c = some entry ↔ Binds pairs c entry
  unbound : ∀ c, l.get? c = none ↔
    c ∈ Token.reserved ∨ ∀ p ∈ pairs, Text.lowerCase p.1 ≠ Text.lowerCase c
  own : ∀ k ∈ l.keys, ∃ entry, (k, entry) ∈ l.entries ∧ l.get? k.char = some entry
  error? : ∀ e, l.error? = some e ↔ ∃ p ∈ pairs, p.2 = .error e
  faultless : l.error? = none ↔ ∀ p ∈ pairs, p.2.slot ≠ .error

/-! ### Pairs one by one -/

theorem wellFormed_nil : WellFormed ([] : List (Char × LegendEntry α ε φ)) :=
  ⟨by simp, by simp, by simp⟩

theorem countP_error_eq_zero :
    (before.countP fun p => p.2.slot = .error) = 0 ↔ ∀ q ∈ before, q.2.slot ≠ .error := by
  simp [List.countP_eq_zero]

/-- A list of pairs goes on well unless the next one spoils it. -/
theorem wellFormed_concat :
    WellFormed (before ++ [p]) ↔ WellFormed before ∧ ∀ e, ¬ Spoils before p e := by
  constructor
  · rintro ⟨hfree, hdistinct, herrors⟩
    rw [List.map_append, List.map_singleton, List.nodup_append] at hdistinct
    obtain ⟨hnodup, -, hapart⟩ := hdistinct
    rw [List.countP_append, List.countP_singleton] at herrors
    refine ⟨⟨fun q hq => hfree q (by simp [hq]), hnodup, by omega⟩, ?_⟩
    intro e hspoils
    cases hspoils with
    | reservedKey h => exact hfree p (by simp) h
    | duplicateKey hp h => exact hapart _ h _ (by simp) rfl
    | ambiguousError hp hnew hq hfirst h =>
      have hnone : (before.countP fun p => p.2.slot = .error) = 0 := by
        simp only [h, decide_true, if_true] at herrors
        omega
      exact countP_error_eq_zero.mp hnone _ hq hfirst
  · rintro ⟨⟨hfree, hdistinct, herrors⟩, hsound⟩
    have hp : p.1 ∉ Token.reserved := fun h => hsound _ (.reservedKey h)
    have hnew : keyOf p ∉ before.map keyOf := fun h => hsound _ (.duplicateKey hp h)
    refine ⟨?_, ?_, ?_⟩
    · intro q hq
      rcases List.mem_append.mp hq with hq | hq
      · exact hfree q hq
      · rwa [List.mem_singleton.mp hq]
    · rw [List.map_append, List.map_singleton]
      rw [← List.concat_eq_append]
      exact hdistinct.concat hnew
    · rw [List.countP_append, List.countP_singleton]
      by_cases h : p.2.slot = .error
      · have hnone : (before.countP fun p => p.2.slot = .error) = 0 :=
          countP_error_eq_zero.mpr fun q hq hfirst => hsound _ (.ambiguousError hp hnew hq hfirst h)
        simp [h, hnone]
      · simpa [h] using herrors

theorem ofPairs_concat (pairs : List (Char × LegendEntry α ε φ)) (p : Char × LegendEntry α ε φ) :
    ofPairs (pairs ++ [p]) = ofPairs pairs >>= fun l => l.add p.1 p.2 := by
  simp only [ofPairs, List.foldlM_append, List.foldlM_cons, List.foldlM_nil, bind_pure]

/-- A key is found exactly if one of the pairs is for it. -/
theorem Holds.find?_isSome (h : l.Holds before) {key : LegendKey} :
    (l.find? key).isSome = true ↔ key ∈ before.map keyOf := by
  simp only [Option.isSome_iff_exists, h.find, List.mem_map, parse_eq_ok]
  constructor
  · rintro ⟨entry, q, hq, ⟨-, hkey⟩, -⟩
    exact ⟨q, hq, hkey.symm⟩
  · rintro ⟨q, hq, hkey⟩
    exact ⟨q.2, q, hq, ⟨h.free q hq, hkey.symm⟩, rfl⟩

theorem Holds.errorKey_of_mem (h : l.Holds before) (hp : p ∈ before) (hslot : p.2.slot = .error) :
    l.errorKey = some (keyOf p) :=
  (h.error _).mpr ⟨p, hp, parse_eq_ok.mpr ⟨h.free p hp, rfl⟩, hslot⟩

/-- What a pair spoils is what its addition fails with. -/
theorem Holds.add_of_spoils (h : l.Holds before) (hspoils : Spoils before p e) :
    l.add p.1 p.2 = .error e := by
  cases hspoils with
  | reservedKey htoken =>
    rw [Legend.add, LegendKey.parse, if_pos htoken]
    rfl
  | duplicateKey hp hbound =>
    rw [Legend.add, LegendKey.parse, if_neg hp]
    change (if (l.find? (keyOf p)).isSome = true then _ else _) = _
    rw [if_pos (h.find?_isSome.mpr hbound)]
    rfl
  | ambiguousError hp hnew hq hfirst hslot =>
    rw [Legend.add, LegendKey.parse, if_neg hp]
    change (if (l.find? (keyOf p)).isSome = true then _ else _) = _
    rw [if_neg (mt h.find?_isSome.mp hnew)]
    cases hentry : p.2 with
    | error e₀ => rw [h.errorKey_of_mem hq hfirst]; rfl
    | _ => rw [hentry] at hslot; cases hslot

theorem Holds.add_of_sound (h : l.Holds before) (hsound : ∀ e, ¬ Spoils before p e) :
    ∃ l', l.add p.1 p.2 = .ok l' := by
  have hp : p.1 ∉ Token.reserved := fun htoken => hsound _ (.reservedKey htoken)
  have hnew : keyOf p ∉ before.map keyOf := fun hbound => hsound _ (.duplicateKey hp hbound)
  have hfind : l.find? (keyOf p) = none := by
    rw [← Option.not_isSome_iff_eq_none, h.find?_isSome]
    exact hnew
  refine ⟨_, add_eq_ok.mpr ⟨keyOf p, parse_eq_ok.mpr ⟨hp, rfl⟩, hfind, ?_, rfl⟩⟩
  intro hslot
  cases herror : l.errorKey with
  | none => rfl
  | some first =>
    obtain ⟨q, hq, -, hfirst⟩ := (h.error first).mp herror
    exact absurd (.ambiguousError hp hnew hq hfirst hslot) (hsound _)

/-- One step of building: a pair is refused exactly for what it spoils. -/
theorem Holds.add_eq_error (h : l.Holds before) : l.add p.1 p.2 = .error e ↔ Spoils before p e := by
  refine ⟨fun he => ?_, h.add_of_spoils⟩
  by_cases hspoiled : ∃ e', Spoils before p e'
  · obtain ⟨e', hspoils⟩ := hspoiled
    obtain rfl : e = e' := Except.error.inj (he.symm.trans (h.add_of_spoils hspoils))
    exact hspoils
  · obtain ⟨l', hl'⟩ := h.add_of_sound (not_exists.mp hspoiled)
    cases he.symm.trans hl'

/-! ### All pairs -/

/-- The pairs that make a legend are the well-formed ones. -/
theorem exists_ofPairs_iff : (∃ l, ofPairs pairs = .ok l) ↔ WellFormed pairs := by
  induction pairs using List.reverseRecOn with
  | nil => exact ⟨fun _ => wellFormed_nil, fun _ => ⟨empty, rfl⟩⟩
  | append_singleton before p ih =>
    rw [wellFormed_concat, ← ih, ofPairs_concat]
    cases hbefore : ofPairs before with
    | error e₀ => simp [bind, Except.bind]
    | ok l =>
      have hholds := holds_ofPairs hbefore
      constructor
      · rintro ⟨l', hl'⟩
        refine ⟨⟨l, rfl⟩, fun e hspoils => ?_⟩
        cases (hholds.add_of_spoils hspoils).symm.trans hl'
      · rintro ⟨-, hsound⟩
        exact hholds.add_of_sound hsound

/-- A list that makes no legend goes well up to a pair, and fails for what that pair spoils. -/
theorem ofPairs_eq_error : ofPairs pairs = .error e ↔
    ∃ before p after, pairs = before ++ p :: after ∧ WellFormed before ∧ Spoils before p e := by
  induction pairs using List.reverseRecOn with
  | nil =>
    constructor
    · intro he
      cases he
    · rintro ⟨before, p, after, hpairs, -⟩
      simp at hpairs
  | append_singleton pairs last ih =>
    have hparts : (∃ before p after, pairs ++ [last] = before ++ p :: after ∧
        WellFormed before ∧ Spoils before p e) ↔
          (∃ before p after, pairs = before ++ p :: after ∧ WellFormed before ∧ Spoils before p e) ∨
            WellFormed pairs ∧ Spoils pairs last e := by
      constructor
      · rintro ⟨before, p, after, hpairs, hbefore, hspoils⟩
        induction after using List.reverseRecOn with
        | nil =>
          obtain ⟨rfl, hlast⟩ := List.append_inj' hpairs rfl
          obtain rfl := List.singleton_inj.mp hlast
          exact Or.inr ⟨hbefore, hspoils⟩
        | append_singleton after q _ =>
          rw [← List.cons_append, ← List.append_assoc] at hpairs
          obtain ⟨rfl, -⟩ := List.append_inj' hpairs rfl
          exact Or.inl ⟨before, p, after, rfl, hbefore, hspoils⟩
      · rintro (⟨before, p, after, rfl, hbefore, hspoils⟩ | ⟨hpairs, hspoils⟩)
        · exact ⟨before, p, after ++ [last], by simp, hbefore, hspoils⟩
        · exact ⟨pairs, last, [], rfl, hpairs, hspoils⟩
    rw [hparts, ← ih, ofPairs_concat, ← exists_ofPairs_iff]
    cases hbefore : ofPairs pairs with
    | error e₀ => simp [bind, Except.bind]
    | ok l =>
      rw [← (holds_ofPairs hbefore).add_eq_error]
      simp [bind, Except.bind]

theorem perm_insertEntry (key : LegendKey) (entry : LegendEntry α ε φ)
    (entries : List (LegendKey × LegendEntry α ε φ)) :
    (insertEntry key entry entries).Perm ((key, entry) :: entries) := by
  induction entries with
  | nil => exact List.Perm.refl _
  | cons q rest ih =>
    obtain ⟨k, old⟩ := q
    rw [insertEntry]
    split
    · exact List.Perm.refl _
    · exact (ih.cons _).trans (List.Perm.swap ..)

/-- The entries of a legend are its pairs, put in order. -/
theorem entries_ofPairs (h : ofPairs pairs = .ok l) :
    l.entries.Perm (pairs.map fun p => (keyOf p, p.2)) ∧ Sorted l.entries := by
  induction pairs using List.reverseRecOn generalizing l with
  | nil =>
    obtain rfl : empty = l := Except.ok.inj h
    exact ⟨List.Perm.refl _, List.Pairwise.nil⟩
  | append_singleton before p ih =>
    rw [ofPairs_concat] at h
    cases hbefore : ofPairs before with
    | error e => rw [hbefore] at h; cases h
    | ok l₀ =>
      rw [hbefore] at h
      obtain ⟨hperm, hsorted⟩ := ih hbefore
      refine ⟨?_, sorted_add h hsorted⟩
      obtain ⟨key, hkey, -, -, rfl⟩ := add_eq_ok.mp h
      obtain rfl : key = keyOf p := (parse_eq_ok.mp hkey).2
      rw [List.map_append, List.map_singleton]
      exact (perm_insertEntry _ _ _).trans
        ((hperm.cons _).trans (List.perm_append_singleton ..).symm)

/-- Keys that are in order and all different ascend. -/
theorem ascending_keys (h : Sorted l.entries) (hdistinct : l.keys.Nodup) :
    l.keys.Pairwise fun j k => j.char < k.char := by
  have hle : l.keys.Pairwise fun j k => j.char ≤ k.char := List.pairwise_map.mpr h
  refine (hle.and hdistinct).imp ?_
  rintro ⟨j⟩ ⟨k⟩ ⟨hjk, hne⟩
  exact lt_of_le_of_ne hjk fun heq => hne (congrArg LegendKey.mk heq)

/-- A legend keeps what it is made of. -/
theorem reflects_ofPairs (h : ofPairs pairs = .ok l) : Reflects pairs l := by
  obtain ⟨hperm, hsorted⟩ := entries_ofPairs h
  have hwell := exists_ofPairs_iff.mp ⟨l, h⟩
  have hkeys : l.keys.Perm (pairs.map keyOf) := by
    have := hperm.map Prod.fst
    rwa [List.map_map] at this
  refine ⟨?_, hkeys, ascending_keys hsorted (hkeys.nodup_iff.mpr hwell.distinct),
    fun c entry => get?_ofPairs h, ?_, ?_, fun e => error?_ofPairs h, error?_ofPairs_eq_none h⟩
  · rw [size, hperm.length_eq, List.length_map]
  · intro c
    rw [get?_ofPairs_eq_none h]
    constructor
    · intro hnone
      by_cases hc : c ∈ Token.reserved
      · exact Or.inl hc
      · exact Or.inr fun p hp hsame => hnone p.2 ⟨hc, p, hp, hsame, rfl⟩
    · rintro (hc | hnone) entry ⟨hfree, p, hp, hsame, -⟩
      · exact hfree hc
      · exact hnone p hp hsame
  · intro k hk
    obtain ⟨p, hp, rfl⟩ := List.mem_map.mp (hkeys.mem_iff.mp hk)
    refine ⟨p.2, hperm.mem_iff.mpr (List.mem_map.mpr ⟨p, hp, rfl⟩), (get?_ofPairs h).mpr ?_⟩
    exact ⟨mt Text.lowerCase_mem_reserved.mp (hwell.free p hp), p, hp,
      (Text.lowerCase_lowerCase p.1).symm, rfl⟩

/-- Building legends: exactly the well-formed lists of pairs make one, it reflects them, and any
other list is refused for what its first bad pair spoils. -/
theorem ofPairs_builds (pairs : List (Char × LegendEntry α ε φ)) :
    ((∃ l, ofPairs pairs = .ok l) ↔ WellFormed pairs) ∧
      (∀ l, ofPairs pairs = .ok l → Reflects pairs l) ∧
      ∀ e, ofPairs pairs = .error e ↔ ∃ before p after, pairs = before ++ p :: after ∧
        WellFormed before ∧ Spoils before p e :=
  ⟨exists_ofPairs_iff, fun _ => reflects_ofPairs, fun _ => ofPairs_eq_error⟩

/-- The Kelvin sign is a `k`, and what has no lower case of its own that is one character is no
`i`. -/
theorem ofPairs_builds_kelvin :
    ∃ l : Legend Nat SequenceError Unit,
      ofPairs [('\u212a', .value 1), ('\u0130', .effect ()), ('i', .value 2)] = .ok l ∧
      Reflects [('\u212a', .value 1), ('\u0130', .effect ()), ('i', .value 2)] l ∧
      l.keys = [⟨'i'⟩, ⟨'k'⟩, ⟨'\u0130'⟩] ∧
      ofPairs (α := Nat) (ε := SequenceError) (φ := Unit)
        [('\u212a', .value 1), ('\u0130', .effect ()), ('i', .value 2), ('K', .value 3),
          ('-', .value 4)] = .error (.duplicateKey ⟨'k'⟩) := by
  obtain ⟨-, hreflects, -⟩ := ofPairs_builds (α := Nat) (ε := SequenceError) (φ := Unit)
    [('\u212a', .value 1), ('\u0130', .effect ()), ('i', .value 2)]
  exact ⟨_, rfl, hreflects _ rfl, rfl, rfl⟩

end Marble.Legend
