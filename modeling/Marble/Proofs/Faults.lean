import Marble.Proofs.Resolution

/-! Why a text is no diagram under a legend: its first stray marker, and only if there is none its
first frame that the legend does not bear out. -/
namespace Marble

namespace Diagram

variable {α ε φ : Type} {pairs : List (Char × LegendEntry α ε φ)} {legend : Legend α ε φ}
  {frames : List PositionedFrame} {text : List Char} {i column : Nat} {e : LegendError}

/-- The leftmost fault. -/
def FirstFaultAt (pairs : List (Char × LegendEntry α ε φ)) (text : List Char) (column : Nat)
    (e : LegendError) : Prop :=
  Fault pairs text column e ∧ ∀ i < column, ∀ e', ¬ Fault pairs text i e'

theorem exists_firstFaultAt (h : Fault pairs text i e) :
    ∃ column e', FirstFaultAt pairs text column e' := by
  classical
  have hex : ∃ i e, Fault pairs text i e := ⟨i, e, h⟩
  obtain ⟨e', he'⟩ := Nat.find_spec hex
  refine ⟨Nat.find hex, e', he', ?_⟩
  intro j hj e'' hfault
  exact Nat.find_min hex hj ⟨e'', hfault⟩

/-- The first frame that does not resolve decides. -/
theorem resolveAll_eq_error (h : frames.Pairwise fun f g => f.column < g.column) :
    resolveAll legend frames = .error e ↔ ∃ f ∈ frames, f.resolve legend = .error e ∧
      ∀ g ∈ frames, g.column < f.column → ∀ e', g.resolve legend ≠ .error e' := by
  induction frames with
  | nil => simp [resolveAll]
  | cons f rest ih =>
    obtain ⟨hlt, hrest⟩ := List.pairwise_cons.mp h
    rw [resolveAll]
    cases hf : f.resolve legend with
    | error e₀ =>
      constructor
      · intro he
        obtain rfl : e₀ = e := Except.error.inj he
        refine ⟨f, by simp, hf, ?_⟩
        intro g hg hbefore
        rcases List.mem_cons.mp hg with rfl | hg
        · omega
        · have := hlt g hg
          omega
      · rintro ⟨g, hg, he, hfirst⟩
        rcases List.mem_cons.mp hg with rfl | hg
        · obtain rfl : e₀ = e := Except.error.inj (hf.symm.trans he)
          rfl
        · exact absurd hf (hfirst f (by simp) (hlt g hg) e₀)
    | ok cell =>
      refine (bind_pure_eq_error.trans (ih hrest)).trans ?_
      constructor
      · rintro ⟨g, hg, he, hfirst⟩
        refine ⟨g, List.mem_cons_of_mem f hg, he, ?_⟩
        intro k hk hbefore
        rcases List.mem_cons.mp hk with rfl | hk
        · intro e' he'
          cases hf.symm.trans he'
        · exact hfirst k hk hbefore
      · rintro ⟨g, hg, he, hfirst⟩
        rcases List.mem_cons.mp hg with rfl | hg
        · cases hf.symm.trans he
        · exact ⟨g, hg, he, fun k hk => hfirst k (List.mem_cons_of_mem f hk)⟩

theorem fault_iff_mem (hl : Legend.ofPairs pairs = .ok legend)
    (htext : Frame.tokenize text = .ok frames) :
    Fault pairs text column e ↔ ∃ f ∈ frames, f.column = column ∧ f.resolve legend = .error e := by
  constructor
  · intro hfault
    obtain ⟨frame, hframe, he⟩ := (fault_iff hl (Frame.countBefore text column)).mp hfault
    exact ⟨_, (Frame.mem_tokenize htext).mpr ⟨hframe, rfl⟩, rfl, he⟩
  · rintro ⟨f, hf, rfl, he⟩
    exact (fault_iff hl f.position).mpr ⟨f.frame, ((Frame.mem_tokenize htext).mp hf).1, he⟩

/-- A text is refused for its first stray marker, or if there is none for its first fault. -/
theorem ofText_eq_error (hl : Legend.ofPairs pairs = .ok legend) {source : String} :
    ofText source legend = .error e ↔
      (∃ column, Frame.FirstStrayAt source.toList column ∧ e = .strayEffectMarker column) ∨
        (∀ i, ¬ Frame.StrayAt source.toList i) ∧
          ∃ column, FirstFaultAt pairs source.toList column e := by
  cases htext : Frame.tokenize source.toList with
  | error e₀ =>
    obtain ⟨stray, hstray, he₀⟩ := Frame.tokenize_eq_error.mp htext
    rw [ofText, htext]
    constructor
    · intro he
      obtain rfl : e₀ = e := Except.error.inj he
      exact Or.inl ⟨stray, hstray, he₀⟩
    · rintro (hfirst | ⟨hnone, -⟩)
      · exact congrArg _ (Except.error.inj (htext.symm.trans (Frame.tokenize_eq_error.mpr hfirst)))
      · exact absurd hstray.1 (hnone stray)
  | ok frames =>
    obtain ⟨hlaid, hwrite⟩ := Frame.scan_eq_ok.mp htext
    have hnone : ∀ i, ¬ Frame.StrayAt source.toList i := hwrite ▸ hlaid.not_strayAt
    have hresolve : ofText source legend = .error e ↔ resolveAll legend frames = .error e := by
      rw [ofText, htext]
      exact bind_pure_eq_error
    rw [hresolve, resolveAll_eq_error (Frame.pairwise_column htext)]
    constructor
    · rintro ⟨f, hf, he, hfirst⟩
      refine Or.inr ⟨hnone, f.column, (fault_iff_mem hl htext).mpr ⟨f, hf, rfl, he⟩, ?_⟩
      intro i hi e' hfault
      obtain ⟨g, hg, rfl, he'⟩ := (fault_iff_mem hl htext).mp hfault
      exact hfirst g hg hi e' he'
    · rintro (⟨stray, hstray, -⟩ | ⟨-, column, hfault, hfirst⟩)
      · exact absurd hstray.1 (hnone stray)
      · obtain ⟨f, hf, rfl, he⟩ := (fault_iff_mem hl htext).mp hfault
        refine ⟨f, hf, he, ?_⟩
        intro g hg hbefore e' he'
        exact hfirst g.column hbefore e' ((fault_iff_mem hl htext).mpr ⟨g, hg, rfl, he'⟩)

/-- Which error a text gets: that of its leftmost stray marker, wherever it stands; only without
one, that of the leftmost frame at fault. A text with neither is a diagram. What is wrong with
legends is never wrong with a text. -/
theorem ofText_fails_iff (hl : Legend.ofPairs pairs = .ok legend) (source : String) :
    (∀ e, ofText source legend = .error e ↔
      (∃ column, Frame.FirstStrayAt source.toList column ∧ e = .strayEffectMarker column) ∨
        (∀ i, ¬ Frame.StrayAt source.toList i) ∧
          ∃ column, FirstFaultAt pairs source.toList column e) ∧
    ((∃ d, ofText source legend = .ok d) ↔
      (∀ i, ¬ Frame.StrayAt source.toList i) ∧ ∀ i e, ¬ Fault pairs source.toList i e) ∧
    (∀ c, ofText source legend ≠ .error (.reservedKey c)) ∧
    (∀ key, ofText source legend ≠ .error (.duplicateKey key)) ∧
    ∀ first second, ofText source legend ≠ .error (.ambiguousError first second) := by
  have hcause : ∀ e, ofText source legend = .error e →
      (∃ column, e = .strayEffectMarker column) ∨ ∃ column, Fault pairs source.toList column e := by
    intro e he
    rcases (ofText_eq_error hl).mp he with ⟨column, -, rfl⟩ | ⟨-, column, hfault, -⟩
    · exact Or.inl ⟨column, rfl⟩
    · exact Or.inr ⟨column, hfault⟩
  refine ⟨fun e => ofText_eq_error hl, ⟨?_, ?_⟩, ?_, ?_, ?_⟩
  · rintro ⟨d, hd⟩
    have hnone : ∀ i, ¬ Frame.StrayAt source.toList i := by
      intro i hstray
      obtain ⟨column, hfirst⟩ := Frame.exists_firstStrayAt ⟨i, hstray⟩
      cases hd.symm.trans ((ofText_eq_error hl).mpr (Or.inl ⟨column, hfirst, rfl⟩))
    refine ⟨hnone, fun i e hfault => ?_⟩
    obtain ⟨column, e', hfirst⟩ := exists_firstFaultAt hfault
    cases hd.symm.trans ((ofText_eq_error hl).mpr (Or.inr ⟨hnone, column, hfirst⟩))
  · rintro ⟨hnone, hsound⟩
    cases hd : ofText source legend with
    | ok d => exact ⟨d, rfl⟩
    | error e =>
      rcases (ofText_eq_error hl).mp hd with ⟨column, hfirst, -⟩ | ⟨-, column, hfault, -⟩
      · exact absurd hfirst.1 (hnone column)
      · exact absurd hfault (hsound column e)
  · intro c he
    rcases hcause _ he with ⟨column, h⟩ | ⟨column, h⟩ <;> cases h
  · intro key he
    rcases hcause _ he with ⟨column, h⟩ | ⟨column, h⟩ <;> cases h
  · intro first second he
    rcases hcause _ he with ⟨column, h⟩ | ⟨column, h⟩ <;> cases h

/-- An unknown key goes unnoticed before a stray marker, and behind a value that is marked. -/
theorem ofText_fails_unknown : ∃ legend : Legend Nat SequenceError Unit,
    Legend.ofPairs [('a', .value 1), ('X', .effect ())] = .ok legend ∧
      ofText "z-x!!" legend = .error (.strayEffectMarker 4) ∧
      ofText "A!z" legend = .error (.slotMismatch ⟨'a'⟩ 0 .value .effect) := by
  have hl : Legend.ofPairs (α := Nat) (ε := SequenceError) [('a', .value 1), ('X', .effect ())] =
      .ok ⟨[(⟨'a'⟩, .value 1), (⟨'x'⟩, .effect ())], none⟩ := rfl
  refine ⟨_, hl, ?_, ?_⟩
  · apply ((ofText_fails_iff hl _).1 _).mpr
    rw [show "z-x!!".toList = ['z', '-', 'x', '!', '!'] from rfl]
    exact Or.inl ⟨4, ⟨by decide, by decide⟩, rfl⟩
  · apply ((ofText_fails_iff hl _).1 _).mpr
    rw [show "A!z".toList = ['A', '!', 'z'] from rfl]
    have hbinds : Legend.Binds (ε := SequenceError) [('a', .value 1), ('X', .effect ())] 'A'
        (.value 1) := ⟨by decide, _, List.mem_cons_self, rfl, rfl⟩
    exact Or.inr ⟨by decide, 0, .marked rfl rfl hbinds (by decide), by simp⟩

end Diagram

end Marble
