import Marble.Proofs.Compilation

/-! Texts put one behind the other: what is cut from the second moves on by the frames and the
columns of the first, and nothing changes at the seam. -/
namespace Marble

variable {α ε φ : Type}

theorem UnitOfTime.frameStart_add (unit : UnitOfTime) (n p : Nat) :
    unit.frameStart (n + p) = unit.frameStart n + unit.frameStart p := by
  ext
  simp only [frameStart, VirtualTime.add_ticks, VirtualTime.clamp_ticks, Nat.add_mul]
  omega

/-- A frame that some frames in some columns have been put before. -/
def PositionedFrame.behind (count columns : Nat) (f : PositionedFrame) : PositionedFrame :=
  ⟨count + f.position, columns + f.column, f.frame⟩

/-- What is wrong in a text that some columns have been put before. -/
def LegendError.behind (columns : Nat) : LegendError → LegendError
  | .strayEffectMarker column => .strayEffectMarker (columns + column)
  | .missingError column => .missingError (columns + column)
  | .unresolvedKey key column => .unresolvedKey key (columns + column)
  | .slotMismatch key column bound used => .slotMismatch key (columns + column) bound used
  | e => e

namespace Frame

variable {text later : List Char} {frames more : List PositionedFrame} {position column i : Nat}

theorem Laid.behind (h : Laid position column frames) (count columns : Nat) :
    Laid (count + position) (columns + column) (frames.map (·.behind count columns)) := by
  induction frames generalizing position column with
  | nil => trivial
  | cons f rest ih =>
    obtain ⟨rfl, rfl, hf, hrest⟩ := h
    refine ⟨rfl, rfl, hf, ?_⟩
    have hmoved := ih hrest
    rwa [← Nat.add_assoc, ← Nat.add_assoc] at hmoved

theorem write_behind (count columns : Nat) :
    write (frames.map (·.behind count columns)) = write frames := by
  rw [write, List.flatMap_map]
  rfl

theorem Laid.append (h : Laid position column frames)
    (hmore : Laid (position + frames.length) (column + (write frames).length) more) :
    Laid position column (frames ++ more) := by
  induction frames generalizing position column with
  | nil => exact hmore
  | cons f rest ih =>
    obtain ⟨hposition, hcolumn, hf, hrest⟩ := h
    refine ⟨hposition, hcolumn, hf, ih hrest ?_⟩
    have hwrite : (write (f :: rest)).length = f.frame.render.length + (write rest).length :=
      List.length_append
    rw [hwrite, List.length_cons] at hmore
    convert hmore using 1 <;> omega

/-- The frames of the second text come behind those of the first. -/
theorem tokenize_append (h : tokenize text = .ok frames) (hlater : tokenize later = .ok more) :
    tokenize (text ++ later) =
      .ok (frames ++ more.map (·.behind frames.length text.length)) := by
  obtain ⟨hlaid, rfl⟩ := scan_eq_ok.mp h
  obtain ⟨hmore, rfl⟩ := scan_eq_ok.mp hlater
  apply scan_eq_ok.mpr
  constructor
  · apply hlaid.append
    have hmoved := hmore.behind frames.length (write frames).length
    rwa [Nat.add_comm _ 0, Nat.add_comm _ 0] at hmoved
  · rw [write, List.flatMap_append]
    exact congrArg (write frames ++ ·) (write_behind _ _)

/-- What follows a text makes none of its own markers stray, and saves none. -/
theorem strayAt_append_left (hi : i < text.length) :
    StrayAt (text ++ later) i ↔ StrayAt text i := by
  have hbefore : i - 1 < text.length := by omega
  rw [StrayAt, StrayAt, List.getElem?_append_left hi, List.getElem?_append_left hbefore]

/-- The character in front of the seam counts for a marker right behind it only. -/
theorem strayAt_append_right (hseam : later.head? ≠ some Token.effectMarker) :
    StrayAt (text ++ later) (text.length + i) ↔ StrayAt later i := by
  cases i with
  | zero =>
    have hfirst : (text ++ later)[text.length + 0]? = later.head? := by
      rw [List.getElem?_append_right (Nat.le_add_right ..), Nat.add_sub_cancel_left,
        List.head?_eq_getElem?]
    constructor
    · intro hstray
      exact absurd (hfirst.symm.trans hstray.1) hseam
    · intro hstray
      exact absurd (strayAt_zero.mp hstray) hseam
  | succ i =>
    have hmarker : (text ++ later)[text.length + (i + 1)]? = later[i + 1]? := by
      rw [List.getElem?_append_right (Nat.le_add_right ..), Nat.add_sub_cancel_left]
    have hbefore : (text ++ later)[text.length + (i + 1) - 1]? = later[i]? := by
      rw [List.getElem?_append_right (by omega)]
      congr 1
      omega
    simp only [StrayAt, hmarker, hbefore, Nat.add_sub_cancel]
    have hne : text.length + (i + 1) ≠ 0 := by omega
    simp only [hne, Nat.succ_ne_zero, false_or]

theorem FirstStrayAt.append_left (h : FirstStrayAt text column) :
    FirstStrayAt (text ++ later) column := by
  have hlt := lt_length_of_strayAt h.1
  refine ⟨(strayAt_append_left hlt).mpr h.1, ?_⟩
  intro i hi hstray
  exact h.2 i hi ((strayAt_append_left (hi.trans hlt)).mp hstray)

theorem FirstStrayAt.append_right (h : FirstStrayAt later column) (hnone : ∀ i, ¬ StrayAt text i)
    (hseam : later.head? ≠ some Token.effectMarker) :
    FirstStrayAt (text ++ later) (text.length + column) := by
  refine ⟨(strayAt_append_right hseam).mpr h.1, ?_⟩
  intro i hi hstray
  by_cases hown : i < text.length
  · exact hnone i ((strayAt_append_left hown).mp hstray)
  · obtain ⟨j, rfl⟩ := Nat.exists_eq_add_of_le (Nat.le_of_not_lt hown)
    exact h.2 j (by omega) ((strayAt_append_right hseam).mp hstray)

end Frame

namespace Timelines

variable {cells more : List (Timed (Cell α ε φ))}

theorem ofCells_append : ofCells (cells ++ more) =
    ⟨(ofCells cells).events ++ (ofCells more).events,
      (ofCells cells).effects ++ (ofCells more).effects⟩ := by
  simp only [ofCells, List.filterMap_append]

theorem ofCells_shift (offset : VirtualTime) : ofCells (Timeline.shift offset cells) =
    ⟨Timeline.shift offset (ofCells cells).events,
      Timeline.shift offset (ofCells cells).effects⟩ := by
  simp only [ofCells, Timeline.shift, List.filterMap_map, List.map_filterMap]
  congr 1 <;> congr 1 <;> funext c <;> obtain ⟨t, n | f⟩ := c <;> rfl

end Timelines

namespace Diagram

variable {legend : Legend α ε φ} {frames more : List PositionedFrame}
  {cells later : List (Nat × Cell α ε φ)} {e : LegendError}

/-- What a frame does has nothing to do with its place; what is said of its fault has. -/
theorem resolve_behind (f : PositionedFrame) (count columns : Nat) :
    (f.behind count columns).resolve legend = (f.resolve legend).mapError (·.behind columns) := by
  have hmoved : PositionedFrame.resolve legend
        ⟨count + f.position, columns + f.column, f.frame.mapKey id⟩ =
      (f.resolve legend).mapError (·.behind columns) :=
    resolve_mapKey f _ _ (fun _ => rfl) (fun _ => rfl) rfl (fun _ => rfl) (fun _ _ _ => rfl)
  rwa [Frame.mapKey_id] at hmoved

theorem resolveAll_behind (frames : List PositionedFrame) (count columns : Nat) :
    resolveAll legend (frames.map (·.behind count columns)) =
      ((resolveAll legend frames).map fun cells => cells.map fun c => (count + c.1, c.2)).mapError
        (·.behind columns) :=
  resolveAll_map (count + ·) (fun _ => rfl) (fun f => resolve_behind f count columns) frames

/-- What comes behind is resolved only if all that comes before it has been. -/
theorem resolveAll_append (frames more : List PositionedFrame) :
    resolveAll legend (frames ++ more) = resolveAll legend frames >>= fun cells =>
      (resolveAll legend more).map (cells ++ ·) := by
  induction frames with
  | nil => cases h : resolveAll legend more <;> simp [resolveAll, h] <;> rfl
  | cons f rest ih =>
    simp only [List.cons_append, resolveAll, ih]
    cases f.resolve legend with
    | error e => rfl
    | ok cell =>
      cases resolveAll legend rest with
      | error e => rfl
      | ok cells =>
        cases resolveAll legend more with
        | error e => rfl
        | ok later => simp [bind, Except.bind, Except.map, pure, Except.pure]

theorem ofText_of_tokenize {text : String} (h : Frame.tokenize text.toList = .ok frames) :
    ofText text legend = (resolveAll legend frames).map fun cells => ⟨text, legend, cells⟩ := by
  rw [ofText_eq_cellsOf, cellsOf, h]
  rfl

theorem ofText_of_stray {text : String} {column : Nat} (h : Frame.FirstStrayAt text.toList column) :
    ofText text legend = .error (.strayEffectMarker column) := by
  rw [ofText, Frame.tokenize_eq_error.mpr ⟨column, h, rfl⟩]
  rfl

theorem exists_frames {text : List Char} (h : ∀ i, ¬ Frame.StrayAt text i) :
    ∃ frames, Frame.tokenize text = .ok frames := by
  cases htext : Frame.tokenize text with
  | ok frames => exact ⟨frames, rfl⟩
  | error e =>
    obtain ⟨column, hstray, -⟩ := Frame.tokenize_eq_error.mp htext
    exact absurd hstray.1 (h column)

/-- Cells behind others compile to later timelines. -/
theorem compile_append (d first second : Diagram α ε φ) {count : Nat}
    (h : d.cells = first.cells ++ second.cells.map fun c => (count + c.1, c.2))
    (unit : UnitOfTime) : d.compile unit =
      ⟨(first.compile unit).events ++
          Timeline.shift (unit.frameStart count) (second.compile unit).events,
        (first.compile unit).effects ++
          Timeline.shift (unit.frameStart count) (second.compile unit).effects⟩ := by
  have hmoved : (second.cells.map fun c => (count + c.1, c.2)).map
        (fun c => (⟨unit.frameStart c.1, c.2⟩ : Timed (Cell α ε φ))) =
      Timeline.shift (unit.frameStart count)
        (second.cells.map fun c => ⟨unit.frameStart c.1, c.2⟩) := by
    simp only [Timeline.shift, List.map_map, Function.comp_def, unit.frameStart_add]
  rw [compile_eq, h, List.map_append, Timelines.ofCells_append, hmoved, Timelines.ofCells_shift,
    ← compile_eq, ← compile_eq]

/-- Texts put one behind the other, where the second does not begin with a marker for the first to
take. A stray marker of the first is reported where it is, one of the second that many columns on;
without either the first fault of the first text decides, then that of the second. If both texts are
diagrams, so is the whole, and it shows what the first shows and then what the second shows, later
by the frames of the first. -/
theorem ofText_append (legend : Legend α ε φ) (first second : String)
    (hseam : second.toList.head? ≠ some Token.effectMarker) :
    (∀ column, Frame.FirstStrayAt first.toList column →
      ofText first legend = .error (.strayEffectMarker column) ∧
        ofText (first ++ second) legend = .error (.strayEffectMarker column)) ∧
    ((∀ i, ¬ Frame.StrayAt first.toList i) →
      (∀ column, Frame.FirstStrayAt second.toList column →
        ofText second legend = .error (.strayEffectMarker column) ∧
          ofText (first ++ second) legend = .error (.strayEffectMarker (first.length + column))) ∧
      ((∀ i, ¬ Frame.StrayAt second.toList i) → ∀ e, ofText (first ++ second) legend = .error e ↔
        ofText first legend = .error e ∨
          (∃ d, ofText first legend = .ok d) ∧
            ∃ e', ofText second legend = .error e' ∧ e = e'.behind first.length)) ∧
    ∀ d₁ d₂, ofText first legend = .ok d₁ → ofText second legend = .ok d₂ →
      ∃ frames d, Frame.tokenize first.toList = .ok frames ∧
        ofText (first ++ second) legend = .ok d ∧ ∀ unit : UnitOfTime,
          (d.compile unit).events = (d₁.compile unit).events ++
            Timeline.shift (unit.frameStart frames.length) (d₂.compile unit).events ∧
          (d.compile unit).effects = (d₁.compile unit).effects ++
            Timeline.shift (unit.frameStart frames.length) (d₂.compile unit).effects := by
  have hlength : first.length = first.toList.length := String.length_toList.symm
  refine ⟨?_, fun hnone => ⟨?_, ?_⟩, ?_⟩
  · intro column hstray
    refine ⟨ofText_of_stray hstray, ofText_of_stray ?_⟩
    rw [String.toList_append]
    exact hstray.append_left
  · intro column hstray
    refine ⟨ofText_of_stray hstray, ofText_of_stray ?_⟩
    rw [String.toList_append, hlength]
    exact hstray.append_right hnone hseam
  · intro hlater e
    obtain ⟨frames, hframes⟩ := exists_frames hnone
    obtain ⟨more, hmore⟩ := exists_frames hlater
    have hwhole := Frame.tokenize_append hframes hmore
    rw [← String.toList_append] at hwhole
    rw [ofText_of_tokenize hwhole, ofText_of_tokenize hframes, ofText_of_tokenize hmore,
      resolveAll_append, resolveAll_behind, hlength]
    cases resolveAll legend frames with
    | error e₁ => simp [Except.map, bind, Except.bind]
    | ok cells =>
      cases resolveAll legend more with
      | error e₂ => simp [Except.map, Except.mapError, bind, Except.bind, eq_comm]
      | ok later => simp [Except.map, Except.mapError, bind, Except.bind]
  · intro d₁ d₂ h₁ h₂
    obtain ⟨frames, hframes, cells, hcells, rfl⟩ := ofText_eq_ok.mp h₁
    obtain ⟨more, hmore, later, hlater, rfl⟩ := ofText_eq_ok.mp h₂
    have hwhole := Frame.tokenize_append hframes hmore
    rw [← String.toList_append] at hwhole
    have hresolved : resolveAll legend
          (frames ++ more.map (·.behind frames.length first.toList.length)) =
        .ok (cells ++ later.map fun c => (frames.length + c.1, c.2)) := by
      rw [resolveAll_append, resolveAll_behind, hcells, hlater]
      rfl
    refine ⟨frames, _, hframes, ofText_eq_ok.mpr ⟨_, hwhole, _, hresolved, rfl⟩, ?_⟩
    intro unit
    rw [compile_append _ ⟨first, legend, cells⟩ ⟨second, legend, later⟩ rfl unit]
    exact ⟨rfl, rfl⟩

/-- A marked key at the seam and a unit of a third of the clock: the second text starts two frames
on, and its completion comes past the last instant. -/
theorem ofText_append_saturated :
    ∃ (legend : Legend Nat SequenceError Unit) (d₁ d₂ d : Diagram Nat SequenceError Unit),
      Legend.ofPairs [('a', .value 1), ('X', .effect ())] = .ok legend ∧
      "-a|".toList.head? ≠ some Token.effectMarker ∧
      ofText "aX!" legend = .ok d₁ ∧ ofText "-a|" legend = .ok d₂ ∧
      ofText ("aX!" ++ "-a|") legend = .ok d ∧
      (d.compile ⟨0x5555555555555555, by decide, by decide⟩).events =
        [⟨.zero, .next 1⟩, ⟨.never, .next 1⟩, ⟨.never, .completed⟩] := by
  have hl : Legend.ofPairs (α := Nat) (ε := SequenceError) [('a', .value 1), ('X', .effect ())] =
      .ok ⟨[(⟨'a'⟩, .value 1), (⟨'x'⟩, .effect ())], none⟩ := rfl
  have hseam : "-a|".toList.head? ≠ some Token.effectMarker := by decide
  obtain ⟨-, -, hbuilt⟩ := ofText_append
    (⟨[(⟨'a'⟩, .value 1), (⟨'x'⟩, .effect ())], none⟩ : Legend Nat SequenceError Unit)
      "aX!" "-a|" hseam
  obtain ⟨frames, d, hframes, hd, hunits⟩ := hbuilt _ _ rfl rfl
  obtain rfl : [⟨0, 0, .emit 'a'⟩, ⟨1, 1, .effect 'X'⟩] = frames := Except.ok.inj hframes
  exact ⟨_, _, _, d, hl, hseam, rfl, rfl, hd, (hunits _).1⟩

end Diagram

end Marble
