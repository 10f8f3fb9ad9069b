import Marble.Diagram
import Marble.Proofs.Time

/-! Texts and frames: a text is cut into frames exactly if writing them one after the other gives
the text back. -/
namespace Marble

namespace Frame

/-- The key of a frame is no token. -/
def Legible : Frame → Prop
  | .emit c => ofChar? c = some (.emit c)
  | .effect c => ofChar? c = some (.emit c)
  | _ => True

/-- The text of frames, one after the other. -/
def write (frames : List PositionedFrame) : List Char := frames.flatMap fun f => f.frame.render

/-- Legible frames whose positions and columns count on from given numbers. -/
def Laid (position column : Nat) : List PositionedFrame → Prop
  | [] => True
  | f :: rest => f.position = position ∧ f.column = column ∧ f.frame.Legible ∧
      Laid (position + 1) (column + f.frame.render.length) rest

variable {c : Char} {f : Frame} {position column : Nat} {text : List Char}
  {frames : List PositionedFrame}

theorem ofChar?_eq_some (h : ofChar? c = some f) : f.render = [c] ∧ f.Legible := by
  have hc := h
  rw [ofChar?] at h
  split at h
  next hw => obtain rfl := Option.some.inj h; exact ⟨congrArg (· :: []) hw.symm, trivial⟩
  split at h
  next hw => obtain rfl := Option.some.inj h; exact ⟨congrArg (· :: []) hw.symm, trivial⟩
  split at h
  next hw => obtain rfl := Option.some.inj h; exact ⟨congrArg (· :: []) hw.symm, trivial⟩
  split at h
  · cases h
  · obtain rfl := Option.some.inj h
    exact ⟨rfl, hc⟩

/-- No legible frame starts with an effect marker. -/
theorem Legible.head?_render (hf : f.Legible) :
    (f.render ++ text).head? ≠ some Token.effectMarker := by
  have hkey : ∀ c, ofChar? c = some (.emit c) → c ≠ Token.effectMarker := by
    rintro c hc rfl
    exact absurd hc (by decide)
  intro hhead
  cases f with
  | wait => exact absurd hhead (by simp only [render, List.cons_append, List.head?_cons]; decide)
  | complete =>
    exact absurd hhead (by simp only [render, List.cons_append, List.head?_cons]; decide)
  | error => exact absurd hhead (by simp only [render, List.cons_append, List.head?_cons]; decide)
  | emit c => exact hkey c hf (Option.some.inj hhead)
  | effect c => exact hkey c hf (Option.some.inj hhead)

theorem Laid.head?_write (h : Laid position column frames) :
    (write frames).head? ≠ some Token.effectMarker := by
  cases frames with
  | nil => simp [write]
  | cons f rest => exact h.2.2.1.head?_render

/-- A legible frame in front of a text is cut off it. -/
theorem scan_render (hf : f.Legible) (htext : text.head? ≠ some Token.effectMarker) :
    scan position column (f.render ++ text) =
      scan (position + 1) (column + f.render.length) text >>= fun rest =>
        pure (⟨position, column, f⟩ :: rest) := by
  have hplain : ∀ c, ofChar? c = some f → scan position column (c :: text) =
      scan (position + 1) (column + 1) text >>= fun rest =>
        pure (⟨position, column, f⟩ :: rest) := by
    intro c hc
    cases text with
    | nil => simp only [scan, hc]; rfl
    | cons d rest =>
      have hd : d ≠ Token.effectMarker := fun hd => htext (congrArg some hd)
      cases f <;> simp only [scan, hc, hd, if_false]
  cases f with
  | wait => exact hplain Token.wait rfl
  | complete => exact hplain Token.complete rfl
  | error => exact hplain Token.error rfl
  | emit c => exact hplain c hf
  | effect c =>
    have hc : ofChar? c = some (.emit c) := hf
    simp only [render, List.cons_append, List.nil_append, scan, hc]
    rfl

theorem cons_eq_ok {first : PositionedFrame} {later : Except LegendError (List PositionedFrame)}
    (h : (later >>= fun rest => pure (first :: rest)) = .ok frames) :
    ∃ rest, later = .ok rest ∧ frames = first :: rest := by
  cases later with
  | error => cases h
  | ok rest => exact ⟨rest, rfl, (Except.ok.inj h).symm⟩

/-- A text is cut into legible frames that write it. -/
theorem scan_eq_ok : scan position column text = .ok frames ↔
    Laid position column frames ∧ write frames = text := by
  constructor
  · intro h
    fun_induction scan position column text generalizing frames with
    | case1 => cases h; exact ⟨trivial, rfl⟩
    | case2 => cases h
    | case3 position column c f hc =>
      cases h
      obtain ⟨hrender, hf⟩ := ofChar?_eq_some hc
      exact ⟨⟨rfl, rfl, hf, trivial⟩, by simp [write, hrender]⟩
    | case4 => cases h
    | case5 position column c rest key hc ih =>
      obtain ⟨later, hlater, rfl⟩ := cons_eq_ok h
      obtain ⟨hrender, hf⟩ := ofChar?_eq_some hc
      obtain ⟨hlaid, rfl⟩ := ih hlater
      obtain rfl : key = c := by simpa [render] using hrender
      exact ⟨⟨rfl, rfl, hf, hlaid⟩, rfl⟩
    | case6 position column c d rest key hc hd ih =>
      obtain ⟨later, hlater, rfl⟩ := cons_eq_ok h
      obtain ⟨hrender, hf⟩ := ofChar?_eq_some hc
      obtain ⟨hlaid, hwrite⟩ := ih hlater
      obtain rfl : key = c := by simpa [render] using hrender
      exact ⟨⟨rfl, rfl, hf, hlaid⟩, congrArg (key :: ·) hwrite⟩
    | case7 position column c d rest f hemit hc ih =>
      obtain ⟨later, hlater, rfl⟩ := cons_eq_ok h
      obtain ⟨hrender, hf⟩ := ofChar?_eq_some hc
      obtain ⟨hlaid, hwrite⟩ := ih hlater
      refine ⟨⟨rfl, rfl, hf, ?_⟩, ?_⟩
      · rwa [hrender]
      · change f.render ++ write later = c :: d :: rest
        rw [hrender, hwrite]
        rfl
  · rintro ⟨hlaid, rfl⟩
    induction frames generalizing position column with
    | nil => rfl
    | cons f rest ih =>
      obtain ⟨rfl, rfl, hf, hrest⟩ := hlaid
      change scan f.position f.column (f.frame.render ++ write rest) = _
      rw [scan_render hf hrest.head?_write, ih hrest]
      rfl

theorem Laid.le (h : Laid position column frames) : ∀ f ∈ frames, position ≤ f.position := by
  induction frames generalizing position column with
  | nil => simp
  | cons f rest ih =>
    obtain ⟨hp, -, -, hrest⟩ := h
    intro g hg
    rcases List.mem_cons.mp hg with rfl | hg
    · exact hp.ge
    · exact Nat.le_of_succ_le (ih hrest g hg)

theorem Laid.pairwise (h : Laid position column frames) :
    frames.Pairwise fun f g => f.position < g.position := by
  induction frames generalizing position column with
  | nil => exact List.Pairwise.nil
  | cons f rest ih =>
    obtain ⟨rfl, -, -, hrest⟩ := h
    exact List.pairwise_cons.mpr ⟨hrest.le, ih hrest⟩

end Frame

theorem PositionedFrame.mismatch_ne_ok {α ε φ : Type} {c : Char} {bound used : Slot}
    {f : PositionedFrame} {cell : Option (Cell α ε φ)} :
    resolve.mismatch f c bound used ≠ .ok cell := by
  rw [resolve.mismatch]
  intro h
  cases hkey : LegendKey.parse c <;> rw [hkey] at h <;> cases h

namespace Diagram

variable {α ε φ : Type} {legend : Legend α ε φ} {f : PositionedFrame}
  {frames : List PositionedFrame}
  {cells : List (Nat × Cell α ε φ)} {text : String} {d : Diagram α ε φ}

theorem resolveAll_cons_eq_ok :
    resolveAll legend (f :: frames) = .ok cells ↔ ∃ cell later, f.resolve legend = .ok cell ∧
      resolveAll legend frames = .ok later ∧
        cells = (cell.toList.map fun c => (f.position, c)) ++ later := by
  rw [resolveAll]
  constructor
  · intro h
    cases hcell : f.resolve legend with
    | error => rw [hcell] at h; cases h
    | ok cell =>
      cases hlater : resolveAll legend frames with
      | error => rw [hcell, hlater] at h; cases h
      | ok later =>
        rw [hcell, hlater] at h
        exact ⟨cell, later, rfl, rfl, (Except.ok.inj h).symm⟩
  · rintro ⟨cell, later, hcell, hlater, rfl⟩
    rw [hcell, hlater]
    rfl

/-- Cells keep the positions of their frames. -/
theorem sublist_resolveAll (h : resolveAll legend frames = .ok cells) :
    (cells.map (·.1)).Sublist (frames.map (·.position)) := by
  induction frames generalizing cells with
  | nil =>
    obtain rfl : [] = cells := Except.ok.inj h
    exact List.Sublist.refl _
  | cons f rest ih =>
    obtain ⟨cell, later, -, hlater, rfl⟩ := resolveAll_cons_eq_ok.mp h
    cases cell with
    | none => exact (ih hlater).cons _
    | some c => exact (ih hlater).cons_cons _

theorem ofText_eq_ok : ofText text legend = .ok d ↔
    ∃ frames, Frame.tokenize text.toList = .ok frames ∧
    ∃ cells, resolveAll legend frames = .ok cells ∧ d = ⟨text, legend, cells⟩ := by
  rw [ofText]
  constructor
  · intro h
    cases hframes : Frame.tokenize text.toList with
    | error => rw [hframes] at h; cases h
    | ok frames =>
      cases hcells : resolveAll legend frames with
      | error => rw [hframes] at h; simp only [bind, Except.bind, hcells] at h; cases h
      | ok cells =>
        rw [hframes] at h
        simp only [bind, Except.bind, hcells] at h
        exact ⟨frames, rfl, cells, hcells, (Except.ok.inj h).symm⟩
  · rintro ⟨frames, hframes, cells, hcells, rfl⟩
    rw [hframes]
    simp only [bind, Except.bind, hcells]
    rfl

theorem pairwise_cells (h : ofText text legend = .ok d) :
    d.cells.Pairwise fun x y => x.1 < y.1 := by
  obtain ⟨frames, hframes, cells, hcells, rfl⟩ := ofText_eq_ok.mp h
  have hpositions : (frames.map (·.position)).Pairwise (· < ·) :=
    List.pairwise_map.mpr (Frame.scan_eq_ok.mp hframes).1.pairwise
  exact List.pairwise_map.mp (hpositions.sublist (sublist_resolveAll hcells))

/-- The notifications of a diagram come in the order of time. -/
theorem pairwise_notifications (h : ofText text legend = .ok d) (unit : UnitOfTime) :
    (d.notifications unit).Pairwise fun x y => x.time ≤ y.time := by
  refine List.Pairwise.filterMap _ ?_ (pairwise_cells h)
  rintro ⟨p, m | f⟩ ⟨q, n | g⟩ hpq x hx y hy
  · obtain rfl := Option.some.inj hx
    obtain rfl := Option.some.inj hy
    exact unit.frameStart_mono hpq.le
  · cases hy
  · cases hx
  · cases hx

end Diagram

end Marble
