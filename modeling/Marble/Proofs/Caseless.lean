import Marble.Proofs.LowerCase
import Marble.Proofs.Compilation
import Marble.Proofs.Faults

/-! Texts that differ in case alone: they are cut alike, and their frames resolve alike. -/
namespace Marble

variable {α ε φ : Type}

open Text (lowerCase)

@[simp] theorem LegendKey.parse_lowerCase (c : Char) : parse (lowerCase c) = parse c := by
  by_cases hc : c ∈ Token.reserved
  · rw [Text.lowerCase_of_mem_reserved hc]
  · have hlower := mt Text.lowerCase_mem_reserved.mp hc
    rw [parse, parse, if_neg hc, if_neg hlower, Text.lowerCase_lowerCase]

@[simp] theorem Legend.get?_lowerCase (legend : Legend α ε φ) (c : Char) :
    legend.get? (lowerCase c) = legend.get? c := by
  rw [get?, get?, LegendKey.parse_lowerCase]

def PositionedFrame.lower (f : PositionedFrame) : PositionedFrame :=
  ⟨f.position, f.column, f.frame.mapKey lowerCase⟩

/-- The only character that is said as it was written is one that nothing is bound to. -/
def LegendError.lower : LegendError → LegendError
  | .unresolvedKey c column => .unresolvedKey (lowerCase c) column
  | e => e

namespace Frame

variable {text : List Char} {frames : List PositionedFrame} {position column i : Nat} {c : Char}
  {f : Frame}

theorem render_lower (hf : f.Legible) : (f.mapKey lowerCase).render = f.render.map lowerCase := by
  have hmarker : lowerCase Token.effectMarker = Token.effectMarker :=
    Text.lowerCase_of_mem_reserved (by decide)
  cases f with
  | emit c => rfl
  | effect c => simp only [mapKey, render, List.map_cons, List.map_nil, hmarker]
  | wait => exact congrArg (· :: []) (Text.lowerCase_of_mem_reserved (by decide)).symm
  | complete => exact congrArg (· :: []) (Text.lowerCase_of_mem_reserved (by decide)).symm
  | error => exact congrArg (· :: []) (Text.lowerCase_of_mem_reserved (by decide)).symm

theorem Legible.lower (hf : f.Legible) : (f.mapKey lowerCase).Legible := by
  cases f with
  | emit c => exact legible_emit.mpr (mt Text.lowerCase_mem_reserved.mp (legible_emit.mp hf))
  | effect c => exact legible_effect.mpr (mt Text.lowerCase_mem_reserved.mp (legible_effect.mp hf))
  | _ => trivial

theorem Laid.lower (h : Laid position column frames) :
    Laid position column (frames.map (·.lower)) ∧
      write (frames.map (·.lower)) = (write frames).map lowerCase := by
  induction frames generalizing position column with
  | nil => exact ⟨trivial, rfl⟩
  | cons f rest ih =>
    obtain ⟨hposition, hcolumn, hf, hrest⟩ := h
    obtain ⟨hlaid, hwrite⟩ := ih hrest
    have hrender := render_lower hf
    constructor
    · refine ⟨hposition, hcolumn, hf.lower, ?_⟩
      change Laid _ (column + (f.frame.mapKey lowerCase).render.length) _
      rwa [hrender, List.length_map]
    · change (f.frame.mapKey lowerCase).render ++ write (rest.map (·.lower)) =
        (f.frame.render ++ write rest).map lowerCase
      rw [hrender, hwrite, List.map_append]

/-- A token is a token in any case, and the same one. -/
theorem getElem?_lowerCase (hc : c ∈ Token.reserved) :
    (text.map lowerCase)[i]? = some c ↔ text[i]? = some c := by
  rw [List.getElem?_map, Option.map_eq_some_iff]
  constructor
  · rintro ⟨d, hd, rfl⟩
    rw [hd, Text.lowerCase_of_mem_reserved (Text.lowerCase_mem_reserved.mp hc)]
  · intro h
    exact ⟨c, h, Text.lowerCase_of_mem_reserved hc⟩

theorem strayAt_lowerCase : StrayAt (text.map lowerCase) i ↔ StrayAt text i := by
  rw [StrayAt, StrayAt, getElem?_lowerCase (by decide)]
  refine and_congr_right fun _ => or_congr_right
    (exists_congr fun c => and_congr_right fun hc => ?_)
  exact getElem?_lowerCase hc

/-- A text in lower case is cut where the text is. -/
theorem tokenize_lowerCase (text : List Char) :
    tokenize (text.map lowerCase) = (tokenize text).map fun frames => frames.map (·.lower) := by
  cases htext : tokenize text with
  | ok frames =>
    obtain ⟨hlaid, rfl⟩ := scan_eq_ok.mp htext
    exact scan_eq_ok.mpr hlaid.lower
  | error e =>
    obtain ⟨column, ⟨hstray, hfirst⟩, rfl⟩ := tokenize_eq_error.mp htext
    refine tokenize_eq_error.mpr ⟨column, ⟨strayAt_lowerCase.mpr hstray, ?_⟩, rfl⟩
    intro i hi hbefore
    exact hfirst i hi (strayAt_lowerCase.mp hbefore)

end Frame

namespace Diagram

variable {legend : Legend α ε φ} {frames : List PositionedFrame} {c : Char} {column : Nat}
  {e e' : LegendError}

theorem resolve_lower (f : PositionedFrame) :
    f.lower.resolve legend = (f.resolve legend).mapError (·.lower) :=
  resolve_mapKey f _ _ LegendKey.parse_lowerCase (fun _ => rfl) rfl (fun _ => rfl)
    (fun _ _ _ => rfl)

theorem resolveAll_lower (frames : List PositionedFrame) :
    resolveAll legend (frames.map (·.lower)) = (resolveAll legend frames).mapError (·.lower) := by
  have hmapped : resolveAll legend (frames.map PositionedFrame.lower) =
      ((resolveAll legend frames).map fun cells =>
        cells.map fun c => (id c.1, c.2)).mapError (·.lower) :=
    resolveAll_map (m := PositionedFrame.lower) id (fun _ => rfl) resolve_lower frames
  refine hmapped.trans ?_
  cases resolveAll legend frames <;> simp [Except.map]

/-- Case makes no difference to what a text amounts to. -/
theorem cellsOf_lowerCase (text : List Char) :
    cellsOf (text.map lowerCase) legend = (cellsOf text legend).mapError (·.lower) := by
  rw [cellsOf, cellsOf, Frame.tokenize_lowerCase]
  cases htext : Frame.tokenize text with
  | ok frames => exact resolveAll_lower frames
  | error e =>
    obtain ⟨column, -, rfl⟩ := Frame.tokenize_eq_error.mp htext
    rfl

theorem mismatch_ne_unresolvedKey {f : PositionedFrame} {key : Char} {bound used : Slot} :
    PositionedFrame.resolve.mismatch (α := α) (ε := ε) (φ := φ) f key bound used ≠
      .error (.unresolvedKey c column) := by
  rw [PositionedFrame.resolve.mismatch, LegendKey.parse]
  split_ifs <;> simp [bind, Except.bind, throw, throwThe, MonadExceptOf.throw]

/-- A frame does not resolve for want of its own key, in its own place. -/
theorem resolve_eq_unresolvedKey {f : PositionedFrame}
    (h : f.resolve legend = .error (.unresolvedKey c column)) :
    f.column = column ∧ (f.frame = .emit c ∨ f.frame = .effect c) := by
  obtain ⟨position, own, frame⟩ := f
  cases frame with
  | wait => cases h
  | complete => cases h
  | error =>
    cases herror : legend.error? <;> simp only [PositionedFrame.resolve, herror] at h <;> cases h
  | emit key =>
    rcases hentry : legend.get? key with _ | v | e | f <;>
      simp only [PositionedFrame.resolve, hentry] at h
    · cases h
      exact ⟨rfl, Or.inl rfl⟩
    · cases h
    · cases h
    · exact absurd h mismatch_ne_unresolvedKey
  | effect key =>
    rcases hentry : legend.get? key with _ | v | e | f <;>
      simp only [PositionedFrame.resolve, hentry] at h
    · cases h
      exact ⟨rfl, Or.inr rfl⟩
    · exact absurd h mismatch_ne_unresolvedKey
    · exact absurd h mismatch_ne_unresolvedKey
    · cases h

/-- A key that does not resolve is reported as it stands in the text. -/
theorem getElem?_of_unresolvedKey {text : List Char}
    (h : cellsOf text legend = .error (.unresolvedKey c column)) : text[column]? = some c := by
  rw [cellsOf] at h
  cases htext : Frame.tokenize text with
  | error e =>
    obtain ⟨stray, -, rfl⟩ := Frame.tokenize_eq_error.mp htext
    rw [htext] at h
    cases h
  | ok frames =>
    rw [htext] at h
    obtain ⟨f, hf, hresolve, -⟩ := (resolveAll_eq_error (Frame.pairwise_column htext)).mp h
    obtain ⟨rfl, hframe⟩ := resolve_eq_unresolvedKey hresolve
    obtain ⟨d, hd, ⟨htoken, hof⟩ | ⟨-, hkey⟩⟩ :=
      Frame.at?_cases ((Frame.mem_tokenize htext).mp hf).1
    · -- no token is a frame with a key
      rcases hframe with hframe | hframe <;> rw [hframe] at hof
      · exact absurd htoken (Frame.ofChar?_eq_emit.mp hof).2
      · cases (Frame.ofChar?_eq_some hof).1
    · rw [hd]
      split_ifs at hkey <;> rw [hkey] at hframe <;> simpa using hframe

/-- Errors that differ in case at most. -/
theorem eq_or_unresolvedKey (h : e.lower = e'.lower) :
    e = e' ∨ ∃ c c' column, e = .unresolvedKey c column ∧ e' = .unresolvedKey c' column := by
  cases e <;> cases e' <;> simp_all [LegendError.lower]

/-- Texts that differ in case alone are both diagrams or both none. The diagrams compile to the same
timelines in every unit; the errors are the same, but for a key that does not resolve, which each
names as it stands in the text. -/
theorem ofText_caseless (legend : Legend α ε φ) {first second : String}
    (h : first.toList.map lowerCase = second.toList.map lowerCase) :
    (∃ d₁ d₂, ofText first legend = .ok d₁ ∧ ofText second legend = .ok d₂ ∧
      ∀ unit : UnitOfTime, d₁.compile unit = d₂.compile unit) ∨
    ∃ e₁ e₂, ofText first legend = .error e₁ ∧ ofText second legend = .error e₂ ∧
      (e₁ = e₂ ∨ ∃ c₁ c₂ column,
        first.toList[column]? = some c₁ ∧ second.toList[column]? = some c₂ ∧
        e₁ = .unresolvedKey c₁ column ∧ e₂ = .unresolvedKey c₂ column) := by
  have hsame : (cellsOf first.toList legend).mapError (·.lower) =
      (cellsOf second.toList legend).mapError (·.lower) := by
    rw [← cellsOf_lowerCase, ← cellsOf_lowerCase, h]
  rw [ofText_eq_cellsOf, ofText_eq_cellsOf]
  cases hfirst : cellsOf first.toList legend with
  | ok cells =>
    cases hsecond : cellsOf second.toList legend with
    | ok later =>
      rw [hfirst, hsecond] at hsame
      obtain rfl : cells = later := Except.ok.inj hsame
      refine Or.inl ⟨_, _, rfl, rfl, fun unit => ?_⟩
      rw [compile_eq, compile_eq]
    | error e => rw [hfirst, hsecond] at hsame; cases hsame
  | error e₁ =>
    cases hsecond : cellsOf second.toList legend with
    | ok later => rw [hfirst, hsecond] at hsame; cases hsame
    | error e₂ =>
      rw [hfirst, hsecond] at hsame
      refine Or.inr ⟨e₁, e₂, rfl, rfl, ?_⟩
      rcases eq_or_unresolvedKey (Except.error.inj hsame) with heq | ⟨c₁, c₂, column, rfl, rfl⟩
      · exact Or.inl heq
      · exact Or.inr ⟨c₁, c₂, column, getElem?_of_unresolvedKey hfirst,
          getElem?_of_unresolvedKey hsecond, rfl, rfl⟩

/-- The key that is bound goes by in either case, and the one that is not is named in its own. -/
theorem ofText_caseless_unresolved :
    ∃ legend : Legend Nat SequenceError Unit,
      Legend.ofPairs [('A', .value 1), ('x', .effect ())] = .ok legend ∧
      "aX!-Z".toList.map lowerCase = "Ax!-z".toList.map lowerCase ∧
      ∃ e₁ e₂, ofText "aX!-Z" legend = .error e₁ ∧ ofText "Ax!-z" legend = .error e₂ ∧
        e₁ = .unresolvedKey 'Z' 4 ∧ e₂ = .unresolvedKey 'z' 4 := by
  have hl : Legend.ofPairs (α := Nat) (ε := SequenceError) [('A', .value 1), ('x', .effect ())] =
      .ok ⟨[(⟨'a'⟩, .value 1), (⟨'x'⟩, .effect ())], none⟩ := rfl
  have hcase : "aX!-Z".toList.map lowerCase = "Ax!-z".toList.map lowerCase := by decide
  refine ⟨_, hl, hcase, ?_⟩
  rcases ofText_caseless
      (⟨[(⟨'a'⟩, .value 1), (⟨'x'⟩, .effect ())], none⟩ : Legend Nat SequenceError Unit) hcase with
    ⟨d₁, -, hd, -⟩ | ⟨e₁, e₂, h₁, h₂, -⟩
  · cases hd
  · exact ⟨e₁, e₂, h₁, h₂, (Except.error.inj h₁).symm, (Except.error.inj h₂).symm⟩

end Diagram

end Marble
