import Marble.Proofs.Bindings
import Marble.Proofs.Columns

/-! What the frame at a column of a text does under a legend made of some pairs, or what is wrong
with it. -/
namespace Marble

/-- A frame with its key written otherwise. -/
def Frame.mapKey (k : Char → Char) : Frame → Frame
  | .emit c => .emit (k c)
  | .effect c => .effect (k c)
  | frame => frame

@[simp] theorem Frame.mapKey_id (frame : Frame) : frame.mapKey id = frame := by
  cases frame <;> rfl

namespace Diagram

variable {α ε φ : Type} {pairs : List (Char × LegendEntry α ε φ)} {legend : Legend α ε φ} {c : Char}
  {bound used : Slot} {f : PositionedFrame} {frame : Frame} {text : List Char} {column : Nat}
  {e : LegendError}

/-- What the frame at a column of a text does, under a legend made of some pairs. -/
inductive Shows (pairs : List (Char × LegendEntry α ε φ)) (text : List Char) (column : Nat) :
    Cell α ε φ → Prop where
  | completed (h : text[column]? = some Token.complete) :
    Shows pairs text column (.notify .completed)
  | failed {e : ε} (h : text[column]? = some Token.error) (hpairs : ∃ p ∈ pairs, p.2 = .error e) :
    Shows pairs text column (.notify (.error e))
  | value {c : Char} {v : α} (h : text[column]? = some c)
      (hmarker : text[column + 1]? ≠ some Token.effectMarker)
      (hentry : Legend.Binds pairs c (.value v)) :
    Shows pairs text column (.notify (.next v))
  | error {c : Char} {e : ε} (h : text[column]? = some c)
      (hmarker : text[column + 1]? ≠ some Token.effectMarker)
      (hentry : Legend.Binds pairs c (.error e)) :
    Shows pairs text column (.notify (.error e))
  | effect {c : Char} {f : φ} (h : text[column]? = some c)
      (hmarker : text[column + 1]? = some Token.effectMarker)
      (hentry : Legend.Binds pairs c (.effect f)) :
    Shows pairs text column (.effect f)

/-- What is wrong with the frame at a column of a text, under a legend made of some pairs. -/
inductive Fault (pairs : List (Char × LegendEntry α ε φ)) (text : List Char) (column : Nat) :
    LegendError → Prop where
  | missingError (h : text[column]? = some Token.error) (hpairs : ∀ p ∈ pairs, p.2.slot ≠ .error) :
    Fault pairs text column (.missingError column)
  | unresolvedKey {c : Char} (h : text[column]? = some c) (hc : c ∉ Token.reserved)
      (hpairs : ∀ entry, ¬ Legend.Binds pairs c entry) :
    Fault pairs text column (.unresolvedKey c column)
  /-- A value or an error is marked as a side effect. -/
  | marked {c : Char} {entry : LegendEntry α ε φ} (h : text[column]? = some c)
      (hmarker : text[column + 1]? = some Token.effectMarker) (hentry : Legend.Binds pairs c entry)
      (hslot : entry.slot ≠ .effect) :
    Fault pairs text column (.slotMismatch ⟨Text.lowerCase c⟩ column entry.slot .effect)
  /-- A side effect is not marked, and so stands for a value. -/
  | unmarked {c : Char} {entry : LegendEntry α ε φ} (h : text[column]? = some c)
      (hmarker : text[column + 1]? ≠ some Token.effectMarker) (hentry : Legend.Binds pairs c entry)
      (hslot : entry.slot = .effect) :
    Fault pairs text column (.slotMismatch ⟨Text.lowerCase c⟩ column entry.slot .value)

theorem mismatch_of_key (hc : c ∉ Token.reserved) :
    PositionedFrame.resolve.mismatch (α := α) (ε := ε) (φ := φ) f c bound used =
      .error (.slotMismatch ⟨Text.lowerCase c⟩ f.column bound used) := by
  simp [PositionedFrame.resolve.mismatch, LegendKey.parse, hc, bind, Except.bind, throw, throwThe,
    MonadExceptOf.throw]

theorem resolve_marked {entry : LegendEntry α ε φ} {position : Nat}
    (hget : legend.get? c = some entry) (hc : c ∉ Token.reserved) (hslot : entry.slot ≠ .effect) :
    PositionedFrame.resolve legend ⟨position, column, .effect c⟩ =
      .error (.slotMismatch ⟨Text.lowerCase c⟩ column entry.slot .effect) := by
  cases entry with
  | effect => exact absurd rfl hslot
  | _ => simp only [PositionedFrame.resolve, hget, mismatch_of_key hc]

theorem resolve_unmarked {entry : LegendEntry α ε φ} {position : Nat}
    (hget : legend.get? c = some entry) (hc : c ∉ Token.reserved) (hslot : entry.slot = .effect) :
    PositionedFrame.resolve legend ⟨position, column, .emit c⟩ =
      .error (.slotMismatch ⟨Text.lowerCase c⟩ column entry.slot .value) := by
  cases entry with
  | effect => simp only [PositionedFrame.resolve, hget, mismatch_of_key hc, LegendEntry.slot]
  | _ => cases hslot

/-- What becomes of a frame at a column: it waits, or does what the text shows there, or is at
fault. -/
def Becomes (pairs : List (Char × LegendEntry α ε φ)) (text : List Char) (column : Nat)
    (frame : Frame) : Except LegendError (Option (Cell α ε φ)) → Prop
  | .ok none => frame = .wait
  | .ok (some cell) => Shows pairs text column cell
  | .error e => Fault pairs text column e

theorem becomes_resolve (hl : Legend.ofPairs pairs = .ok legend)
    (hframe : Frame.at? text column = some frame) (position : Nat) :
    Becomes pairs text column frame (PositionedFrame.resolve legend ⟨position, column, frame⟩) := by
  obtain ⟨c, hc, ⟨htoken, hframe⟩ | ⟨hkey, rfl⟩⟩ := Frame.at?_cases hframe
  · -- of the tokens only the error asks the legend
    simp only [Token.reserved, List.mem_cons, List.not_mem_nil, or_false] at htoken
    rcases htoken with rfl | rfl | rfl | rfl <;> cases hframe
    · rfl
    · exact Shows.completed hc
    · cases herror : legend.error? with
      | none =>
        simp only [PositionedFrame.resolve, herror]
        exact Fault.missingError hc ((Legend.error?_ofPairs_eq_none hl).mp herror)
      | some e =>
        simp only [PositionedFrame.resolve, herror]
        exact Shows.failed hc ((Legend.error?_ofPairs hl).mp herror)
  · cases hget : legend.get? c with
    | none =>
      have hfault := Fault.unresolvedKey hc hkey ((Legend.get?_ofPairs_eq_none hl).mp hget)
      split_ifs
      · simp only [PositionedFrame.resolve, hget]
        exact hfault
      · simp only [PositionedFrame.resolve, hget]
        exact hfault
    | some entry =>
      have hentry := (Legend.get?_ofPairs hl).mp hget
      by_cases hmarker : text[column + 1]? = some Token.effectMarker
      · rw [if_pos hmarker]
        by_cases hslot : entry.slot = .effect
        · cases entry with
          | effect f =>
            simp only [PositionedFrame.resolve, hget]
            exact Shows.effect hc hmarker hentry
          | _ => cases hslot
        · rw [resolve_marked hget hkey hslot]
          exact Fault.marked hc hmarker hentry hslot
      · rw [if_neg hmarker]
        cases entry with
        | value v =>
          simp only [PositionedFrame.resolve, hget]
          exact Shows.value hc hmarker hentry
        | error e =>
          simp only [PositionedFrame.resolve, hget]
          exact Shows.error hc hmarker hentry
        | effect f =>
          rw [resolve_unmarked hget hkey rfl]
          exact Fault.unmarked hc hmarker hentry rfl

/-- Faults are what frames fail with where they stand. -/
theorem fault_iff (hl : Legend.ofPairs pairs = .ok legend) (position : Nat) :
    Fault pairs text column e ↔ ∃ frame, Frame.at? text column = some frame ∧
      PositionedFrame.resolve legend ⟨position, column, frame⟩ = .error e := by
  constructor
  · intro hfault
    cases hfault with
    | missingError h hpairs =>
      refine ⟨.error, Frame.at?_of_token h (by decide), ?_⟩
      simp [PositionedFrame.resolve, (Legend.error?_ofPairs_eq_none hl).mpr hpairs]
    | unresolvedKey h hc hpairs =>
      refine ⟨_, Frame.at?_of_key h hc, ?_⟩
      have hget := (Legend.get?_ofPairs_eq_none hl).mpr hpairs
      split_ifs <;> simp [PositionedFrame.resolve, hget]
    | marked h hmarker hentry hslot =>
      refine ⟨_, Frame.at?_of_key h hentry.1, ?_⟩
      rw [if_pos hmarker]
      exact resolve_marked ((Legend.get?_ofPairs hl).mpr hentry) hentry.1 hslot
    | unmarked h hmarker hentry hslot =>
      refine ⟨_, Frame.at?_of_key h hentry.1, ?_⟩
      rw [if_neg hmarker]
      exact resolve_unmarked ((Legend.get?_ofPairs hl).mpr hentry) hentry.1 hslot
  · rintro ⟨frame, hframe, hresolve⟩
    have hbecomes := becomes_resolve hl hframe position
    rwa [hresolve] at hbecomes

/-! ### Frames in another place or case -/

/-- A frame that comes to stand elsewhere, with its key written otherwise, does what it did; where
it is at fault, this is said of its new place. -/
theorem resolve_mapKey {k : Char → Char} {g : LegendError → LegendError} (f : PositionedFrame)
    (position column : Nat) (hkey : ∀ c, LegendKey.parse (k c) = LegendKey.parse c)
    (hreserved : ∀ c, g (.reservedKey c) = .reservedKey c)
    (hmissing : g (.missingError f.column) = .missingError column)
    (hunresolved : ∀ c, g (.unresolvedKey c f.column) = .unresolvedKey (k c) column)
    (hslot : ∀ key bound used,
      g (.slotMismatch key f.column bound used) = .slotMismatch key column bound used) :
    PositionedFrame.resolve legend ⟨position, column, f.frame.mapKey k⟩ =
      (f.resolve legend).mapError g := by
  obtain ⟨oldPosition, oldColumn, frame⟩ := f
  have hget : ∀ c, legend.get? (k c) = legend.get? c := by
    intro c
    rw [Legend.get?, Legend.get?, hkey]
  have hmismatch : ∀ frame' c bound used,
      PositionedFrame.resolve.mismatch (α := α) (ε := ε) (φ := φ) ⟨position, column, frame'⟩ (k c)
          bound used =
        (PositionedFrame.resolve.mismatch
          ⟨oldPosition, oldColumn, frame⟩ c bound used).mapError g := by
    intro frame' c bound used
    simp only [PositionedFrame.resolve.mismatch, hkey]
    cases hparse : LegendKey.parse c with
    | ok key => exact congrArg _ (hslot key bound used).symm
    | error e =>
      rw [LegendKey.parse] at hparse
      split_ifs at hparse
      obtain rfl := Except.error.inj hparse
      exact congrArg _ (hreserved c).symm
  cases frame with
  | wait => rfl
  | complete => rfl
  | error =>
    cases herror : legend.error? with
    | none =>
      simp only [Frame.mapKey, PositionedFrame.resolve, herror]
      exact congrArg _ hmissing.symm
    | some e =>
      simp only [Frame.mapKey, PositionedFrame.resolve, herror]
      rfl
  | emit c =>
    rcases hentry : legend.get? c with _ | v | e | f <;>
      simp only [Frame.mapKey, PositionedFrame.resolve, hget, hentry]
    · exact congrArg _ (hunresolved c).symm
    · rfl
    · rfl
    · exact hmismatch _ _ _ _
  | effect c =>
    rcases hentry : legend.get? c with _ | v | e | f <;>
      simp only [Frame.mapKey, PositionedFrame.resolve, hget, hentry]
    · exact congrArg _ (hunresolved c).symm
    · exact hmismatch _ _ _ _
    · exact hmismatch _ _ _ _
    · rfl

/-- What holds of each frame holds of them all: the first fault stays the first. -/
theorem resolveAll_map {m : PositionedFrame → PositionedFrame} {g : LegendError → LegendError}
    (place : Nat → Nat) (hplace : ∀ f, (m f).position = place f.position)
    (hresolve : ∀ f, (m f).resolve legend = (f.resolve legend).mapError g)
    (frames : List PositionedFrame) :
    resolveAll legend (frames.map m) =
      ((resolveAll legend frames).map fun cells =>
        cells.map fun c => (place c.1, c.2)).mapError g := by
  induction frames with
  | nil => rfl
  | cons f rest ih =>
    simp only [List.map_cons, resolveAll, hresolve, ih, hplace]
    cases f.resolve legend with
    | error e => rfl
    | ok cell =>
      cases resolveAll legend rest with
      | error e => rfl
      | ok cells => cases cell <;> rfl

/-- What a text amounts to: the cells of its diagram, or what is wrong with it. -/
def cellsOf (text : List Char) (legend : Legend α ε φ) :
    Except LegendError (List (Nat × Cell α ε φ)) :=
  Frame.tokenize text >>= resolveAll legend

theorem ofText_eq_cellsOf (source : String) :
    ofText source legend = (cellsOf source.toList legend).map fun cells =>
      ⟨source, legend, cells⟩ := by
  rw [ofText, cellsOf]
  cases Frame.tokenize source.toList with
  | error e => rfl
  | ok frames => cases h : resolveAll legend frames <;> simp [bind, Except.bind, h] <;> rfl

end Diagram

end Marble
