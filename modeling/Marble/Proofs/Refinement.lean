import Marble.Proofs.Writing
import Mathlib.Data.Char

/-! Legends and diagrams under a partial function: the values it drops leave the legend, and their
frames fall silent. -/
namespace Marble

variable {α ε φ κ : Type} {P : α → Option α}

namespace LegendEntry

/-- An entry under a partial function of the values. -/
def refine (P : α → Option α) : LegendEntry α ε φ → Option (LegendEntry α ε φ)
  | .value v => (P v).map .value
  | entry => some entry

/-- The entries that are left under a partial function, with their keys. -/
def refineAll (P : α → Option α) (entries : List (κ × LegendEntry α ε φ)) :
    List (κ × LegendEntry α ε φ) :=
  entries.filterMap fun p => (p.2.refine P).map fun entry => (p.1, entry)

variable {key : κ} {entry entry' : LegendEntry α ε φ} {entries : List (κ × LegendEntry α ε φ)}

theorem refineAll_cons_none (h : entry.refine P = none) :
    refineAll P ((key, entry) :: entries) = refineAll P entries :=
  List.filterMap_cons_none (by simp [h])

theorem refineAll_cons_some (h : entry.refine P = some entry') :
    refineAll P ((key, entry) :: entries) = (key, entry') :: refineAll P entries :=
  List.filterMap_cons_some (by simp [h])

@[simp] theorem refine_some (entry : LegendEntry α ε φ) : entry.refine some = some entry := by
  cases entry <;> rfl

theorem key_mem_refineAll {p : κ × LegendEntry α ε φ} (h : p ∈ refineAll P entries) :
    ∃ q ∈ entries, q.1 = p.1 := by
  obtain ⟨q, hq, hp⟩ := List.mem_filterMap.mp h
  obtain ⟨_, _, rfl⟩ := Option.map_eq_some_iff.mp hp
  exact ⟨q, hq, rfl⟩

variable [BEq κ]

theorem lookup_refineAll_eq_none (h : entries.lookup key = none) :
    (refineAll P entries).lookup key = none := by
  rw [List.lookup_eq_none_iff] at h ⊢
  intro p hp
  obtain ⟨q, hq, hk⟩ := key_mem_refineAll hp
  exact hk ▸ h q hq

theorem lookup_refineAll [LawfulBEq κ] (h : entries.lookup key = some entry)
    (he : entry.refine P = some entry') :
    (refineAll P entries).lookup key = some entry' := by
  induction entries with
  | nil => simp at h
  | cons p rest ih =>
    obtain ⟨k, e⟩ := p
    rw [List.lookup_cons] at h
    by_cases hk : key = k
    · subst hk
      obtain rfl : e = entry := by simpa using h
      rw [refineAll_cons_some he, List.lookup_cons_self]
    · have hk : (key == k) = false := beq_eq_false_iff_ne.mpr hk
      have hrest := ih (by rwa [hk] at h)
      cases hentry : e.refine P with
      | none => rw [refineAll_cons_none hentry, hrest]
      | some e' => rw [refineAll_cons_some hentry, List.lookup_cons, hk, hrest]

end LegendEntry

namespace Legend

/-- A legend under a partial function of its values. -/
def refine (P : α → Option α) (l : Legend α ε φ) : Legend α ε φ :=
  ⟨LegendEntry.refineAll P l.entries, l.errorKey⟩

/-- The entries stand in the order of their keys. -/
def Sorted (entries : List (LegendKey × LegendEntry α ε φ)) : Prop :=
  entries.Pairwise fun x y => x.1.char ≤ y.1.char

/-- A function that changes nothing changes no legend. -/
@[simp] theorem refine_some (l : Legend α ε φ) : l.refine some = l := by
  simp [refine, LegendEntry.refineAll]

variable {l l' : Legend α ε φ} {key : LegendKey} {entry entry' : LegendEntry α ε φ} {c : Char}
  {entries : List (LegendKey × LegendEntry α ε φ)} {pairs : List (Char × LegendEntry α ε φ)}

theorem get?_refine (h : l.get? c = some entry) (he : entry.refine P = some entry') :
    (l.refine P).get? c = some entry' := by
  obtain ⟨key, hkey, hfind⟩ := Option.bind_eq_some_iff.mp h
  exact Option.bind_eq_some_iff.mpr ⟨key, hkey, LegendEntry.lookup_refineAll hfind he⟩

theorem error?_eq_some {e : ε} :
    l.error? = some e ↔ l.errorKey.bind l.find? = some (.error e) := by
  rw [error?]
  constructor
  · intro h
    split at h
    next he => rw [he, Option.some.inj h]
    · cases h
  · intro h
    rw [h]

theorem error?_refine {e : ε} (h : l.error? = some e) : (l.refine P).error? = some e := by
  obtain ⟨key, hkey, hfind⟩ := Option.bind_eq_some_iff.mp (error?_eq_some.mp h)
  exact error?_eq_some.mpr (Option.bind_eq_some_iff.mpr
    ⟨key, hkey, LegendEntry.lookup_refineAll hfind rfl⟩)

theorem mem_insertEntry {p : LegendKey × LegendEntry α ε φ} :
    p ∈ insertEntry key entry entries ↔ p = (key, entry) ∨ p ∈ entries := by
  induction entries with
  | nil => simp [insertEntry]
  | cons q rest ih =>
    obtain ⟨k, e⟩ := q
    rw [insertEntry]
    split
    · simp
    · simp only [List.mem_cons, ih]
      exact or_left_comm

theorem sorted_insertEntry (h : Sorted entries) : Sorted (insertEntry key entry entries) := by
  induction entries with
  | nil => exact List.pairwise_singleton ..
  | cons q rest ih =>
    obtain ⟨k, e⟩ := q
    obtain ⟨hle, hrest⟩ := List.pairwise_cons.mp h
    rw [insertEntry]
    split
    next hlt =>
      refine List.pairwise_cons.mpr ⟨fun y hy => ?_, h⟩
      rcases List.mem_cons.mp hy with rfl | hy
      · exact hlt.le
      · exact hlt.le.trans (hle y hy)
    next hlt =>
      refine List.pairwise_cons.mpr ⟨fun y hy => ?_, ih hrest⟩
      rcases mem_insertEntry.mp hy with rfl | hy
      · exact not_lt.mp hlt
      · exact hle y hy

theorem insertEntry_of_forall_lt (h : ∀ p ∈ entries, key.char < p.1.char) :
    insertEntry key entry entries = (key, entry) :: entries := by
  cases entries with
  | nil => rfl
  | cons p rest => exact if_pos (h p (by simp))

theorem refineAll_insertEntry_none (he : entry.refine P = none) :
    LegendEntry.refineAll P (insertEntry key entry entries) = LegendEntry.refineAll P entries := by
  induction entries with
  | nil => exact LegendEntry.refineAll_cons_none he
  | cons q rest ih =>
    obtain ⟨k, e⟩ := q
    rw [insertEntry]
    split
    · exact LegendEntry.refineAll_cons_none he
    · simp only [LegendEntry.refineAll, List.filterMap_cons] at ih ⊢
      rw [ih]

theorem refineAll_insertEntry (h : Sorted entries) (he : entry.refine P = some entry') :
    LegendEntry.refineAll P (insertEntry key entry entries) =
      insertEntry key entry' (LegendEntry.refineAll P entries) := by
  induction entries with
  | nil => exact LegendEntry.refineAll_cons_some he
  | cons q rest ih =>
    obtain ⟨k, e⟩ := q
    obtain ⟨hle, hrest⟩ := List.pairwise_cons.mp h
    rw [insertEntry]
    split
    next hlt =>
      rw [LegendEntry.refineAll_cons_some he, insertEntry_of_forall_lt]
      intro p hp
      obtain ⟨q, hq, hk⟩ := LegendEntry.key_mem_refineAll hp
      rw [← hk]
      rcases List.mem_cons.mp hq with rfl | hq
      · exact hlt
      · exact hlt.trans_le (hle q hq)
    next hlt =>
      cases hentry : e.refine P with
      | none =>
        rw [LegendEntry.refineAll_cons_none hentry,
          LegendEntry.refineAll_cons_none hentry, ih hrest]
      | some e' =>
        rw [LegendEntry.refineAll_cons_some hentry,
          LegendEntry.refineAll_cons_some hentry, ih hrest, insertEntry, if_neg hlt]

theorem slot_refine (he : entry.refine P = some entry') : entry'.slot = entry.slot := by
  cases entry with
  | value v =>
    obtain ⟨v', -, rfl⟩ := Option.map_eq_some_iff.mp he
    rfl
  | error e => rw [← Option.some.inj he]
  | effect f => rw [← Option.some.inj he]

theorem add_eq_ok : l.add c entry = .ok l' ↔ ∃ key, LegendKey.parse c = .ok key ∧
    l.find? key = none ∧ (entry.slot = .error → l.errorKey = none) ∧
      l' = ⟨insertEntry key entry l.entries,
        if entry.slot = .error then some key else l.errorKey⟩ := by
  rw [add]
  cases LegendKey.parse c with
  | error e => simp [bind, Except.bind]
  | ok key =>
    cases hfind : l.find? key with
    | some old => simp [bind, Except.bind, hfind, throw, throwThe, MonadExceptOf.throw]
    | none =>
      cases entry <;> cases herror : l.errorKey <;>
        simp [bind, Except.bind, hfind, throw, throwThe, MonadExceptOf.throw, LegendEntry.slot,
          pure, Except.pure, eq_comm]

theorem sorted_add (h : l.add c entry = .ok l') (hl : Sorted l.entries) : Sorted l'.entries := by
  obtain ⟨key, -, -, -, rfl⟩ := add_eq_ok.mp h
  exact sorted_insertEntry hl

/-- A pair that is dropped leaves no trace in the legend. -/
theorem refine_add_none (h : l.add c entry = .ok l') (he : entry.refine P = none) :
    l'.refine P = l.refine P := by
  obtain ⟨key, -, -, -, rfl⟩ := add_eq_ok.mp h
  cases entry with
  | value v => exact congrArg (Legend.mk · l.errorKey) (refineAll_insertEntry_none he)
  | error e => cases he
  | effect f => cases he

theorem refine_add (h : l.add c entry = .ok l') (hl : Sorted l.entries)
    (he : entry.refine P = some entry') : (l.refine P).add c entry' = .ok (l'.refine P) := by
  obtain ⟨key, hkey, hfind, herror, rfl⟩ := add_eq_ok.mp h
  refine add_eq_ok.mpr ⟨key, hkey, LegendEntry.lookup_refineAll_eq_none hfind, ?_, ?_⟩
  · rw [slot_refine he]
    exact herror
  · rw [slot_refine he]
    exact congrArg (Legend.mk · _) (refineAll_insertEntry hl he)

/-- A legend made of what is left of some pairs is what is left of the legend made of them. -/
theorem ofPairs_refineAll (h : ofPairs pairs = .ok l) :
    ofPairs (LegendEntry.refineAll P pairs) = .ok (l.refine P) := by
  have hfold : ∀ l₀ : Legend α ε φ, Sorted l₀.entries →
      pairs.foldlM (fun l p => l.add p.1 p.2) l₀ = .ok l →
      (LegendEntry.refineAll P pairs).foldlM (fun l p => l.add p.1 p.2) (l₀.refine P) =
        .ok (l.refine P) := by
    clear h
    induction pairs with
    | nil =>
      intro l₀ _ h
      rw [← Except.ok.inj h]
      rfl
    | cons p rest ih =>
      obtain ⟨c, entry⟩ := p
      intro l₀ hl₀ h
      rw [List.foldlM_cons] at h
      cases hadd : l₀.add c entry with
      | error => rw [hadd] at h; cases h
      | ok l₁ =>
        rw [hadd] at h
        have hrest := ih l₁ (sorted_add hadd hl₀) h
        cases he : entry.refine P with
        | none =>
          rwa [LegendEntry.refineAll_cons_none he, ← refine_add_none hadd he]
        | some entry' =>
          rw [LegendEntry.refineAll_cons_some he, List.foldlM_cons, refine_add hadd hl₀ he]
          exact hrest
  exact hfold empty List.Pairwise.nil h

end Legend

variable {legend : Legend α ε φ}

/-- The key stands for a value that the function drops. -/
def Legend.drops (legend : Legend α ε φ) (P : α → Option α) (c : Char) : Bool :=
  match legend.get? c with
  | some (.value v) => (P v).isNone
  | _ => false

/-- A frame of which a dropped value leaves one of silence. -/
def Frame.mask (legend : Legend α ε φ) (P : α → Option α) : Frame → Frame
  | .emit c => if legend.drops P c then .wait else .emit c
  | frame => frame

/-- A cell under a partial function of the values. -/
def Cell.refine (P : α → Option α) : Cell α ε φ → Option (Cell α ε φ)
  | .notify (.next v) => (P v).map fun v' => .notify (.next v')
  | cell => some cell

namespace PositionedFrame

/-- A frame is masked in its place. -/
def mask (legend : Legend α ε φ) (P : α → Option α) (f : PositionedFrame) : PositionedFrame :=
  { f with frame := f.frame.mask legend P }

variable {f : PositionedFrame} {cell : Option (Cell α ε φ)}

/-- A masked frame does under the refined legend what is left of what the frame did. -/
theorem resolve_mask (h : f.resolve legend = .ok cell) :
    (f.mask legend P).resolve (legend.refine P) = .ok (cell.bind (Cell.refine P)) := by
  obtain ⟨position, column, frame⟩ := f
  cases frame with
  | wait =>
    obtain rfl := Except.ok.inj h
    rfl
  | complete =>
    obtain rfl := Except.ok.inj h
    rfl
  | error =>
    cases he : legend.error? with
    | none => simp [resolve, he] at h
    | some e =>
      obtain rfl : some (.notify (.error e)) = cell := by simpa [resolve, he] using h
      simp [mask, Frame.mask, resolve, Legend.error?_refine he, Cell.refine]
  | emit c =>
    cases hc : legend.get? c with
    | none => simp [resolve, hc] at h
    | some entry =>
      cases entry with
      | value v =>
        obtain rfl : some (.notify (.next v)) = cell := by simpa [resolve, hc] using h
        cases hv : P v with
        | none => simp [mask, Frame.mask, Legend.drops, hc, hv, resolve, Cell.refine]
        | some v' =>
          have hc' := Legend.get?_refine hc
            (show LegendEntry.refine P (.value v) = some (.value v') by
              simp [LegendEntry.refine, hv])
          simp [mask, Frame.mask, Legend.drops, hc, hv, resolve, Cell.refine, hc']
      | error e =>
        obtain rfl : some (.notify (.error e)) = cell := by simpa [resolve, hc] using h
        have hc' := Legend.get?_refine (P := P) hc rfl
        simp [mask, Frame.mask, Legend.drops, hc, resolve, Cell.refine, hc']
      | effect e =>
        simp only [resolve, hc] at h
        exact absurd h mismatch_ne_ok
  | effect c =>
    cases hc : legend.get? c with
    | none => simp [resolve, hc] at h
    | some entry =>
      cases entry with
      | effect e =>
        obtain rfl : some (.effect e) = cell := by simpa [resolve, hc] using h
        have hc' := Legend.get?_refine (P := P) hc rfl
        simp [mask, Frame.mask, resolve, Cell.refine, hc']
      | value v =>
        simp only [resolve, hc] at h
        exact absurd h mismatch_ne_ok
      | error e =>
        simp only [resolve, hc] at h
        exact absurd h mismatch_ne_ok

end PositionedFrame

namespace Frame

variable {f : Frame} {position column : Nat} {frames : List PositionedFrame}

/-- A masked frame takes as much of the text. -/
theorem length_render_mask : (f.mask legend P).render.length = f.render.length := by
  cases f with
  | emit c =>
    rw [mask]
    split <;> rfl
  | _ => rfl

theorem Legible.mask (h : f.Legible) : (f.mask legend P).Legible := by
  cases f with
  | emit c =>
    rw [Frame.mask]
    split
    · trivial
    · exact h
  | _ => exact h

theorem Laid.mask (h : Laid position column frames) :
    Laid position column (frames.map (·.mask legend P)) := by
  induction frames generalizing position column with
  | nil => trivial
  | cons f rest ih =>
    obtain ⟨hp, hc, hf, hrest⟩ := h
    refine ⟨hp, hc, hf.mask, ?_⟩
    change Laid _ (column + (f.frame.mask legend P).render.length) _
    rw [length_render_mask]
    exact ih hrest

end Frame

namespace Diagram

variable {text : String} {d : Diagram α ε φ} {frames : List PositionedFrame}
  {cells : List (Nat × Cell α ε φ)}

/-- A text in which the frames of dropped values are frames of silence. -/
def mask (legend : Legend α ε φ) (P : α → Option α) (text : String) : String :=
  match Frame.tokenize text.toList with
  | .ok frames => String.ofList (Frame.write (frames.map (·.mask legend P)))
  | .error _ => text

/-- The cells that are left under a partial function of the values. -/
def refineCells (P : α → Option α) (cells : List (Nat × Cell α ε φ)) : List (Nat × Cell α ε φ) :=
  cells.filterMap fun c => (c.2.refine P).map fun cell => (c.1, cell)

@[simp] theorem mask_some (legend : Legend α ε φ) (text : String) :
    mask legend some text = text := by
  have hframe : ∀ f : PositionedFrame, f.mask legend some = f := by
    rintro ⟨position, column, frame⟩
    cases frame with
    | emit c =>
      have hdrops : legend.drops some c = false := by
        rw [Legend.drops]
        split <;> rfl
      simp [PositionedFrame.mask, Frame.mask, hdrops]
    | _ => rfl
  rw [mask]
  split
  next frames hframes =>
    simp only [hframe, List.map_id']
    rw [(Frame.scan_eq_ok.mp hframes).2, String.ofList_toList]
  · rfl

theorem resolveAll_mask (h : resolveAll legend frames = .ok cells) :
    resolveAll (legend.refine P) (frames.map (·.mask legend P)) = .ok (refineCells P cells) := by
  induction frames generalizing cells with
  | nil =>
    obtain rfl : [] = cells := Except.ok.inj h
    rfl
  | cons f rest ih =>
    obtain ⟨cell, later, hcell, hlater, rfl⟩ := resolveAll_cons_eq_ok.mp h
    refine resolveAll_cons_eq_ok.mpr
      ⟨_, _, PositionedFrame.resolve_mask hcell, ih hlater, ?_⟩
    rw [refineCells, List.filterMap_append]
    congr 1
    cases cell with
    | none => rfl
    | some c => cases hc : c.refine P <;> simp [hc, PositionedFrame.mask]

/-- The masked text is read against the refined legend. -/
theorem ofText_mask (h : ofText text legend = .ok d) :
    ofText (mask legend P text) (legend.refine P) =
      .ok ⟨mask legend P text, legend.refine P, refineCells P d.cells⟩ := by
  obtain ⟨frames, hframes, cells, hcells, rfl⟩ := ofText_eq_ok.mp h
  refine ofText_eq_ok.mpr ⟨frames.map (·.mask legend P), ?_, _, resolveAll_mask hcells, rfl⟩
  rw [mask, hframes]
  simp only [String.toList_ofList]
  exact Frame.scan_eq_ok.mpr ⟨(Frame.scan_eq_ok.mp hframes).1.mask, rfl⟩

end Diagram

end Marble
