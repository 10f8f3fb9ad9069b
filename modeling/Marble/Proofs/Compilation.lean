import Marble.Proofs.Resolution

/-! What a diagram compiles to, read off its text: one cell for every frame that does something, at
the time of its place. A wider unit stretches the two timelines. -/
namespace Marble

variable {α β ε φ : Type}

/-- An instant moved away from the start by a factor, up to the last instant. -/
def Timed.stretch (k : Nat) (e : Timed β) : Timed β := ⟨.clamp (e.time.ticks * k), e.value⟩

namespace Timelines

def stretch (k : Nat) (t : Timelines α ε φ) : Timelines α ε φ :=
  ⟨t.events.map (·.stretch k), t.effects.map (·.stretch k)⟩

/-- Cells at their times, with the notifications and the side effects put apart. -/
def ofCells (cells : List (Timed (Cell α ε φ))) : Timelines α ε φ where
  events := cells.filterMap fun c =>
    match c.value with
    | .notify n => some ⟨c.time, n⟩
    | .effect _ => none
  effects := cells.filterMap fun c =>
    match c.value with
    | .notify _ => none
    | .effect f => some ⟨c.time, f⟩

variable {cells : List (Timed (Cell α ε φ))}

/-- Both timelines keep the order of the cells. -/
theorem pairwise_ofCells (h : cells.Pairwise fun x y => x.time ≤ y.time) :
    (ofCells cells).events.Pairwise (fun x y => x.time ≤ y.time) ∧
      (ofCells cells).effects.Pairwise (fun x y => x.time ≤ y.time) := by
  constructor
  · refine h.filterMap _ ?_
    rintro ⟨s, m | f⟩ ⟨t, n | g⟩ hst x hx y hy <;> cases hx <;> cases hy
    exact hst
  · refine h.filterMap _ ?_
    rintro ⟨s, m | f⟩ ⟨t, n | g⟩ hst x hx y hy <;> cases hx <;> cases hy
    exact hst

theorem stretch_ofCells (k : Nat) :
    (ofCells cells).stretch k = ofCells (cells.map (·.stretch k)) := by
  simp only [stretch, ofCells, List.map_filterMap, List.filterMap_map]
  congr 1 <;> congr 1 <;> funext c <;> obtain ⟨t, n | f⟩ := c <;> rfl

end Timelines

/-- In a wider unit everything starts as much later. -/
theorem UnitOfTime.frameStart_stretch {unit wider : UnitOfTime} {k : Nat}
    (h : wider.ticks = unit.ticks * k) (p : Nat) :
    wider.frameStart p = .clamp ((unit.frameStart p).ticks * k) := by
  have hk : 0 < k := Nat.pos_of_mul_pos_left (h ▸ wider.ticks_pos)
  ext
  simp only [frameStart, VirtualTime.clamp_ticks, h, ← Nat.mul_assoc]
  rcases Nat.le_total (p * unit.ticks) maxTicks with hle | hle
  · rw [Nat.min_eq_left hle]
  · -- both lie past the last instant
    have hlast : maxTicks ≤ maxTicks * k := Nat.le_mul_of_pos_right _ hk
    have hfar : maxTicks * k ≤ p * unit.ticks * k := Nat.mul_le_mul_right k hle
    rw [Nat.min_eq_right hle, Nat.min_eq_right hlast, Nat.min_eq_right (hlast.trans hfar)]

namespace Diagram

variable {pairs : List (Char × LegendEntry α ε φ)} {legend : Legend α ε φ}
  {frames : List PositionedFrame} {text : List Char} {column : Nat}
  {cells : List (Nat × Cell α ε φ)} {d : Diagram α ε φ}

/-- Whether a frame that does something starts at a column. -/
def isShown (text : List Char) (column : Nat) : Bool :=
  text[column]? ≠ some Token.wait ∧ text[column]? ≠ some Token.effectMarker

/-- Cells, each with the column that shows it: one for every frame that is no wait, from left to
right. -/
structure Depicts (pairs : List (Char × LegendEntry α ε φ)) (text : List Char)
    (cells : List (Nat × Cell α ε φ)) : Prop where
  columns : cells.map (·.1) = (List.range text.length).filter (isShown text)
  shows : ∀ cell ∈ cells, Shows pairs text cell.1 cell.2

/-- Cells at the times of their columns. -/
def timetable (text : List Char) (unit : UnitOfTime) (cells : List (Nat × Cell α ε φ)) :
    List (Timed (Cell α ε φ)) :=
  cells.map fun c => ⟨.clamp (Frame.countBefore text c.1 * unit.ticks), c.2⟩

/-- Frames that have been resolved, each beside its cell. -/
theorem exists_resolved (hwaits : ∀ f ∈ frames, f.resolve legend = .ok none → f.frame = .wait)
    (h : resolveAll legend frames = .ok cells) :
    ∃ resolved : List (PositionedFrame × Cell α ε φ),
      resolved.map (·.1) = frames.filter (·.frame ≠ .wait) ∧
        (∀ r ∈ resolved, r.1.resolve legend = .ok (some r.2)) ∧
          cells = resolved.map fun r => (r.1.position, r.2) := by
  induction frames generalizing cells with
  | nil =>
    obtain rfl : [] = cells := Except.ok.inj h
    exact ⟨[], rfl, by simp, rfl⟩
  | cons f rest ih =>
    obtain ⟨hf, hrest⟩ := List.forall_mem_cons.mp hwaits
    obtain ⟨cell, later, hcell, hlater, rfl⟩ := resolveAll_cons_eq_ok.mp h
    obtain ⟨resolved, hframes, hresolved, rfl⟩ := ih hrest hlater
    cases cell with
    | none => exact ⟨resolved, by simp [hf hcell, hframes], hresolved, rfl⟩
    | some cell =>
      have hframe : f.frame ≠ .wait := by
        intro hwait
        simp [PositionedFrame.resolve, hwait] at hcell
      refine ⟨(f, cell) :: resolved, by simp [hframe, hframes], ?_, rfl⟩
      exact List.forall_mem_cons.mpr ⟨hcell, hresolved⟩

theorem isShown_eq (h : column < text.length) :
    isShown text column = (Frame.at? text column).any (· ≠ .wait) := by
  obtain ⟨c, hc⟩ : ∃ c, text[column]? = some c := ⟨_, List.getElem?_eq_getElem h⟩
  by_cases htoken : c ∈ Token.reserved
  · rw [Frame.at?_of_token hc htoken, isShown, hc]
    simp only [Token.reserved, List.mem_cons, List.not_mem_nil, or_false] at htoken
    rcases htoken with rfl | rfl | rfl | rfl <;> rfl
  · rw [Frame.at?_of_key hc htoken, isShown, hc]
    simp only [Token.reserved, List.mem_cons, not_or] at htoken
    split_ifs <;> simp [htoken]

/-- The columns of the frames that are no waits. -/
theorem columns_standing (columns : List Nat) (h : ∀ i ∈ columns, i < text.length) :
    ((columns.filterMap (Frame.standing? text)).filter (·.frame ≠ .wait)).map (·.column) =
      columns.filter (isShown text) := by
  induction columns with
  | nil => rfl
  | cons i rest ih =>
    obtain ⟨hi, hrest⟩ := List.forall_mem_cons.mp h
    have hlater := ih hrest
    have hshown := isShown_eq hi
    cases hframe : Frame.at? text i with
    | none =>
      rw [List.filterMap_cons_none (by rw [Frame.standing?, hframe]; rfl), hlater]
      simp [hshown, hframe]
    | some frame =>
      rw [List.filterMap_cons_some (by rw [Frame.standing?, hframe]; rfl)]
      by_cases hwait : frame = .wait
      · simpa [hshown, hframe, hwait] using hlater
      · simpa [hshown, hframe, hwait] using hlater

theorem exists_depicts (hl : Legend.ofPairs pairs = .ok legend) {source : String}
    (hd : ofText source legend = .ok d) : ∃ cells, Depicts pairs source.toList cells ∧
      d.cells = cells.map fun c => (Frame.countBefore source.toList c.1, c.2) := by
  obtain ⟨frames, hframes, cells, hcells, rfl⟩ := ofText_eq_ok.mp hd
  have hbecomes : ∀ f ∈ frames, Becomes pairs source.toList f.column f.frame (f.resolve legend) :=
    fun f hf => becomes_resolve hl ((Frame.mem_tokenize hframes).mp hf).1 f.position
  have hwaits : ∀ f ∈ frames, f.resolve legend = .ok none → f.frame = .wait := by
    intro f hf hnone
    have := hbecomes f hf
    rwa [hnone] at this
  obtain ⟨resolved, hresolved, hcell, rfl⟩ := exists_resolved hwaits hcells
  have hmem : ∀ r ∈ resolved, r.1 ∈ frames := by
    intro r hr
    have hkept : r.1 ∈ frames.filter (·.frame ≠ .wait) := hresolved ▸ List.mem_map_of_mem hr
    exact (List.mem_filter.mp hkept).1
  refine ⟨resolved.map fun r => (r.1.column, r.2), ⟨?_, ?_⟩, ?_⟩
  · have hcolumns : resolved.map (fun r => r.1.column) =
        (frames.filter (·.frame ≠ .wait)).map (·.column) := by
      rw [← hresolved, List.map_map]
      rfl
    rw [List.map_map]
    refine hcolumns.trans ?_
    rw [Frame.tokenize_eq_standing hframes]
    exact columns_standing _ fun i hi => List.mem_range.mp hi
  · intro c hc
    obtain ⟨r, hr, rfl⟩ := List.mem_map.mp hc
    have := hbecomes r.1 (hmem r hr)
    rwa [hcell r hr] at this
  · rw [List.map_map]
    refine List.map_congr_left fun r hr => ?_
    rw [((Frame.mem_tokenize hframes).mp (hmem r hr)).2]
    rfl

theorem compile_eq (d : Diagram α ε φ) (unit : UnitOfTime) :
    d.compile unit = .ofCells (d.cells.map fun c => ⟨unit.frameStart c.1, c.2⟩) := by
  simp only [compile, notifications, sideEffects, Timelines.ofCells, List.filterMap_map]
  congr 1 <;> congr 1 <;> funext c <;> obtain ⟨p, n | f⟩ := c <;> rfl

theorem compile_stretch {unit wider : UnitOfTime} {k : Nat} (h : wider.ticks = unit.ticks * k)
    (d : Diagram α ε φ) : d.compile wider = (d.compile unit).stretch k := by
  rw [compile_eq, compile_eq, Timelines.stretch_ofCells, List.map_map]
  congr 2
  funext c
  simp only [Function.comp_apply, Timed.stretch, UnitOfTime.frameStart_stretch h]

/-- A diagram compiles to what its text shows: every frame that is no wait has one entry, at the
time of its place, in the order of the text. Within the clock later frames come strictly later, and
a wider unit stretches all times. -/
theorem compile_depicts (hl : Legend.ofPairs pairs = .ok legend) {source : String}
    (hd : ofText source legend = .ok d) :
    ∃ cells, Depicts pairs source.toList cells ∧ ∀ unit : UnitOfTime,
      d.compile unit = .ofCells (timetable source.toList unit cells) ∧
      (d.compile unit).events.Pairwise (fun x y => x.time ≤ y.time) ∧
      (d.compile unit).effects.Pairwise (fun x y => x.time ≤ y.time) ∧
      (timetable source.toList unit (cells.filter fun c =>
        Frame.countBefore source.toList c.1 * unit.ticks ≤ maxTicks)).Pairwise
          (fun x y => x.time < y.time) ∧
      ∀ (k : Nat) (wider : UnitOfTime), wider.ticks = unit.ticks * k →
        d.compile wider = (d.compile unit).stretch k := by
  obtain ⟨cells, hdepicts, hcells⟩ := exists_depicts hl hd
  have hplaces : cells.Pairwise fun x y =>
      Frame.countBefore source.toList x.1 < Frame.countBefore source.toList y.1 := by
    have hpositions := pairwise_cells hd
    rw [hcells, List.pairwise_map] at hpositions
    exact hpositions
  refine ⟨cells, hdepicts, fun unit => ?_⟩
  have hcompile : d.compile unit = .ofCells (timetable source.toList unit cells) := by
    rw [compile_eq, hcells, List.map_map]
    rfl
  have htimes : (timetable source.toList unit cells).Pairwise fun x y => x.time ≤ y.time :=
    List.pairwise_map.mpr (hplaces.imp fun hlt => unit.frameStart_mono hlt.le)
  obtain ⟨hevents, heffects⟩ := Timelines.pairwise_ofCells htimes
  refine ⟨hcompile, hcompile ▸ hevents, hcompile ▸ heffects, ?_, ?_⟩
  · apply List.pairwise_map.mpr
    apply List.pairwise_filter.mpr
    refine hplaces.imp ?_
    intro x y hlt _ hy
    have hy := of_decide_eq_true hy
    have := Nat.mul_lt_mul_of_pos_right hlt unit.ticks_pos
    simp only [VirtualTime.lt_iff, VirtualTime.clamp_ticks]
    omega
  · intro k wider hwider
    exact compile_stretch hwider d

/-- A unit of a quarter of the clock takes the completion past its end, one of three quarters the
side effect too. -/
theorem compile_depicts_saturated :
    ∃ (legend : Legend Nat SequenceError Unit) (d : Diagram Nat SequenceError Unit)
      (cells : List (Nat × Cell Nat SequenceError Unit)),
      Legend.ofPairs [('a', .value 1), ('X', .effect ())] = .ok legend ∧
      ofText "-aX!-|" legend = .ok d ∧
      Depicts [('a', .value 1), ('X', .effect ())] "-aX!-|".toList cells ∧
      d.compile ⟨0xc000000000000000, by decide, by decide⟩ =
        (d.compile ⟨0x4000000000000000, by decide, by decide⟩).stretch 3 := by
  have hl : Legend.ofPairs (α := Nat) (ε := SequenceError) [('a', .value 1), ('X', .effect ())] =
      .ok ⟨[(⟨'a'⟩, .value 1), (⟨'x'⟩, .effect ())], none⟩ := rfl
  have hd : ofText "-aX!-|" ⟨[(⟨'a'⟩, .value 1), (⟨'x'⟩, .effect ())], none⟩ =
      .ok (⟨_, _, [(1, .notify (.next 1)), (2, .effect ()), (4, .notify .completed)]⟩ :
        Diagram Nat SequenceError Unit) := rfl
  obtain ⟨cells, hdepicts, hunits⟩ := compile_depicts hl hd
  obtain ⟨-, -, -, -, hstretch⟩ := hunits ⟨0x4000000000000000, by decide, by decide⟩
  exact ⟨_, _, cells, hl, hd, hdepicts, hstretch 3 _ rfl⟩

end Diagram

end Marble
