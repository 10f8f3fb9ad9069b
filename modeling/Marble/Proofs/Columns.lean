import Marble.Proofs.Writing

/-! A text column by column: where an effect marker strays, and which frame starts where. -/
namespace Marble

theorem bind_pure_eq_error {ε β γ : Type} {x : Except ε β} {g : β → γ} {e : ε} :
    (x >>= fun b => pure (g b)) = .error e ↔ x = .error e := by
  cases x <;> simp [bind, Except.bind, pure, Except.pure]

namespace Frame

variable {c : Char} {f : Frame} {i position column : Nat} {text rest : List Char} {e : LegendError}
  {frames : List PositionedFrame} {fs : List Frame}

theorem ofChar?_eq_none : ofChar? c = none ↔ c = Token.effectMarker := by
  constructor
  · intro h
    by_contra hne
    simp only [ofChar?, hne, if_false] at h
    split_ifs at h
  · rintro rfl
    decide

theorem ofChar?_eq_emit {key : Char} :
    ofChar? c = some (.emit key) ↔ key = c ∧ c ∉ Token.reserved := by
  constructor
  · intro h
    obtain ⟨hrender, -⟩ := ofChar?_eq_some h
    obtain rfl : key = c := by simpa [render] using hrender
    refine ⟨rfl, fun hkey => ?_⟩
    simp only [Token.reserved, List.mem_cons, List.not_mem_nil, or_false] at hkey
    rcases hkey with rfl | rfl | rfl | rfl <;> cases h
  · rintro ⟨rfl, hkey⟩
    simp only [Token.reserved, List.mem_cons, not_or] at hkey
    obtain ⟨hwait, hcomplete, herror, hmarker, -⟩ := hkey
    simp only [ofChar?, hwait, hcomplete, herror, hmarker, if_false]

theorem legible_emit : (emit c).Legible ↔ c ∉ Token.reserved := by
  simp [Legible, ofChar?_eq_emit]

theorem legible_effect : (effect c).Legible ↔ c ∉ Token.reserved := legible_emit

/-! ### Markers that mark nothing -/

/-- An effect marker with no key before it: it opens the text, or it stands behind a token. -/
def StrayAt (text : List Char) (column : Nat) : Prop :=
  text[column]? = some Token.effectMarker ∧
    (column = 0 ∨ ∃ c ∈ Token.reserved, text[column - 1]? = some c)

instance : Decidable (StrayAt text column) :=
  decidable_of_iff (text[column]? = some Token.effectMarker ∧
    (column = 0 ∨ Token.reserved.any fun c => text[column - 1]? == some c)) (by simp [StrayAt])

theorem lt_length_of_strayAt (h : StrayAt text column) : column < text.length :=
  (List.getElem?_eq_some_iff.mp h.1).1

instance : Decidable (∀ i, ¬ StrayAt text i) :=
  decidable_of_iff (∀ i < text.length, ¬ StrayAt text i)
    ⟨fun h i hi => h i (lt_length_of_strayAt hi) hi, fun h i _ => h i⟩

/-- The leftmost marker that strays. -/
def FirstStrayAt (text : List Char) (column : Nat) : Prop :=
  StrayAt text column ∧ ∀ i < column, ¬ StrayAt text i

theorem exists_firstStrayAt (h : ∃ i, StrayAt text i) : ∃ i, FirstStrayAt text i :=
  ⟨Nat.find h, Nat.find_spec h, fun _ hi => Nat.find_min h hi⟩

theorem FirstStrayAt.unique {j : Nat} (hi : FirstStrayAt text i) (hj : FirstStrayAt text j) :
    i = j := by
  rcases Nat.lt_trichotomy i j with hlt | heq | hlt
  · exact absurd hi.1 (hj.2 i hlt)
  · exact heq
  · exact absurd hj.1 (hi.2 j hlt)

theorem strayAt_zero : StrayAt text 0 ↔ text.head? = some Token.effectMarker := by
  simp [StrayAt, List.head?_eq_getElem?]

/-- Only the character right before a marker counts. -/
theorem strayAt_cons_succ_succ : StrayAt (c :: text) (i + 2) ↔ StrayAt text (i + 1) := by
  simp [StrayAt]

theorem strayAt_cons_succ (h : c ∈ Token.reserved ∨ text.head? ≠ some Token.effectMarker) :
    StrayAt (c :: text) (i + 1) ↔ StrayAt text i := by
  cases i with
  | zero =>
    rw [strayAt_zero]
    simp only [StrayAt, List.getElem?_cons_succ, ← List.head?_eq_getElem?]
    constructor
    · intro hstray
      exact hstray.1
    · intro hhead
      rcases h with hc | hne
      · exact ⟨hhead, Or.inr ⟨c, hc, rfl⟩⟩
      · exact absurd hhead hne
  | succ i => exact strayAt_cons_succ_succ

/-- A frame has no stray marker in it and lets none of the others stray, unless it is a key that a
marker follows: the two would be another frame. -/
theorem strayAt_render (hf : f.Legible)
    (hrest : ∀ c, f = .emit c → rest.head? ≠ some Token.effectMarker) :
    (∀ j < f.render.length, ¬ StrayAt (f.render ++ rest) j) ∧
      ∀ j, StrayAt (f.render ++ rest) (f.render.length + j) ↔ StrayAt rest j := by
  have hhead : ¬ StrayAt (f.render ++ rest) 0 := fun h =>
    hf.head?_render (strayAt_zero.mp h)
  have hplain : ∀ c, c ∈ Token.reserved ∨ rest.head? ≠ some Token.effectMarker → f.render = [c] →
      (∀ j < f.render.length, ¬ StrayAt (f.render ++ rest) j) ∧
        ∀ j, StrayAt (f.render ++ rest) (f.render.length + j) ↔ StrayAt rest j := by
    intro c hc hrender
    constructor
    · intro j hj
      obtain rfl : j = 0 := by simp [hrender] at hj; omega
      exact hhead
    · intro j
      rw [hrender, List.length_singleton, Nat.add_comm]
      exact strayAt_cons_succ hc
  cases f with
  | wait => exact hplain _ (Or.inl (by decide)) rfl
  | complete => exact hplain _ (Or.inl (by decide)) rfl
  | error => exact hplain _ (Or.inl (by decide)) rfl
  | emit c => exact hplain c (Or.inr (hrest c rfl)) rfl
  | effect c =>
    constructor
    · intro j hj
      have hj : j < 2 := hj
      obtain rfl | rfl : j = 0 ∨ j = 1 := by omega
      · exact hhead
      · -- the marker of the frame stands behind its key
        rintro ⟨-, h | ⟨d, hd, hkey⟩⟩
        · cases h
        · obtain rfl : c = d := Option.some.inj hkey
          exact legible_effect.mp hf hd
    · intro j
      change StrayAt (c :: Token.effectMarker :: rest) (2 + j) ↔ _
      rw [Nat.add_comm, strayAt_cons_succ_succ]
      exact strayAt_cons_succ (Or.inl (by decide))

theorem Laid.not_strayAt (h : Laid position column frames) : ∀ i, ¬ StrayAt (write frames) i := by
  induction frames generalizing position column with
  | nil =>
    intro i hstray
    simp [write, StrayAt] at hstray
  | cons f rest ih =>
    obtain ⟨-, -, hf, hrest⟩ := h
    obtain ⟨hown, hlater⟩ := strayAt_render hf fun _ _ => hrest.head?_write
    intro i
    by_cases hi : i < f.frame.render.length
    · exact hown i hi
    · intro hstray
      obtain ⟨j, rfl⟩ := Nat.exists_eq_add_of_le (Nat.le_of_not_lt hi)
      exact ih hrest j ((hlater j).mp hstray)

/-- A marker that is the first to stray behind a frame is so in the text that the frame starts. -/
theorem FirstStrayAt.render (h : FirstStrayAt rest i) (hf : f.Legible)
    (hrest : ∀ c, f = .emit c → rest.head? ≠ some Token.effectMarker) :
    FirstStrayAt (f.render ++ rest) (f.render.length + i) := by
  obtain ⟨hown, hlater⟩ := strayAt_render hf hrest
  refine ⟨(hlater i).mpr h.1, ?_⟩
  intro j hj
  by_cases hlt : j < f.render.length
  · exact hown j hlt
  · intro hstray
    obtain ⟨k, rfl⟩ := Nat.exists_eq_add_of_le (Nat.le_of_not_lt hlt)
    exact h.2 k (by omega) ((hlater k).mp hstray)

/-- What keeps a text from being cut into frames is its first stray marker. -/
theorem firstStrayAt_of_scan (h : scan position column text = .error e) :
    ∃ i, FirstStrayAt text i ∧ e = .strayEffectMarker (column + i) := by
  have hopening : ∀ c text, ofChar? c = none → FirstStrayAt (c :: text) 0 := by
    intro c text hc
    refine ⟨strayAt_zero.mpr ?_, by simp⟩
    rw [ofChar?_eq_none.mp hc]
    rfl
  fun_induction scan position column text with
  | case1 => cases h
  | case2 position column c hc =>
    cases h
    exact ⟨0, hopening c [] hc, rfl⟩
  | case3 => cases h
  | case4 position column c d rest hc =>
    cases h
    exact ⟨0, hopening c (d :: rest) hc, rfl⟩
  | case5 position column c rest key hc ih =>
    -- a key with its marker: the rest is cut from two columns on
    obtain ⟨i, hi, rfl⟩ := ih (bind_pure_eq_error.mp h)
    obtain ⟨hrender, hf⟩ := ofChar?_eq_some hc
    obtain rfl : key = c := by simpa [render] using hrender
    refine ⟨2 + i, hi.render (f := .effect key) hf (by simp), ?_⟩
    rw [Nat.add_assoc]
  | case6 position column c d rest key hc hd ih =>
    obtain ⟨i, hi, rfl⟩ := ih (bind_pure_eq_error.mp h)
    obtain ⟨hrender, hf⟩ := ofChar?_eq_some hc
    obtain rfl : key = c := by simpa [render] using hrender
    refine ⟨1 + i, hi.render (f := .emit key) hf (fun _ _ => by simpa using hd), ?_⟩
    rw [Nat.add_assoc]
  | case7 position column c d rest f hemit hc ih =>
    obtain ⟨i, hi, rfl⟩ := ih (bind_pure_eq_error.mp h)
    obtain ⟨hrender, hf⟩ := ofChar?_eq_some hc
    have hfirst := hi.render hf fun key hkey => (hemit key hkey).elim
    rw [hrender] at hfirst
    refine ⟨1 + i, hfirst, ?_⟩
    rw [Nat.add_assoc]

theorem tokenize_eq_error : tokenize text = .error e ↔
    ∃ column, FirstStrayAt text column ∧ e = .strayEffectMarker column := by
  constructor
  · intro h
    obtain ⟨i, hi, rfl⟩ := firstStrayAt_of_scan h
    exact ⟨i, hi, by rw [Nat.zero_add]⟩
  · rintro ⟨i, hi, rfl⟩
    cases htext : tokenize text with
    | ok frames =>
      obtain ⟨hlaid, rfl⟩ := scan_eq_ok.mp htext
      exact absurd hi.1 (hlaid.not_strayAt i)
    | error e =>
      obtain ⟨j, hj, rfl⟩ := firstStrayAt_of_scan htext
      rw [Nat.zero_add, hi.unique hj]

/-- A text is cut into frames unless a marker strays in it; the leftmost that does is reported. -/
theorem tokenize_fails_iff (text : List Char) :
    ((∃ e, tokenize text = .error e) ↔ ∃ column, StrayAt text column) ∧
      ∀ e, tokenize text = .error e ↔
        ∃ column, FirstStrayAt text column ∧ e = .strayEffectMarker column := by
  refine ⟨⟨?_, ?_⟩, fun e => tokenize_eq_error⟩
  · rintro ⟨e, he⟩
    obtain ⟨column, hfirst, -⟩ := tokenize_eq_error.mp he
    exact ⟨column, hfirst.1⟩
  · intro hstray
    obtain ⟨column, hfirst⟩ := exists_firstStrayAt hstray
    exact ⟨_, tokenize_eq_error.mpr ⟨column, hfirst, rfl⟩⟩

/-! ### Frames and their columns -/

/-- Whether a frame takes two columns. -/
def isEffect : Frame → Bool
  | .effect _ => true
  | _ => false

theorem length_render (f : Frame) : f.render.length = 1 + if f.isEffect then 1 else 0 := by
  cases f <;> rfl

/-- Frames in their places: each marked key moves what follows it one column on. -/
def place (fs : List Frame) : List PositionedFrame :=
  fs.mapIdx fun i f => ⟨i, i + (fs.take i).countP isEffect, f⟩

theorem laid_mapIdx (h : ∀ f ∈ fs, f.Legible) : Laid position column
    (fs.mapIdx fun i f => ⟨position + i, column + i + (fs.take i).countP isEffect, f⟩) := by
  induction fs generalizing position column with
  | nil => trivial
  | cons f rest ih =>
    obtain ⟨hf, hrest⟩ := List.forall_mem_cons.mp h
    have hlater : ∀ i g, (⟨position + (i + 1),
        column + (i + 1) + ((f :: rest).take (i + 1)).countP isEffect, g⟩ : PositionedFrame) =
          ⟨position + 1 + i, column + f.render.length + i + (rest.take i).countP isEffect, g⟩ := by
      intro i g
      rw [List.take_succ_cons, List.countP_cons, length_render, PositionedFrame.mk.injEq]
      exact ⟨by omega, by omega, rfl⟩
    rw [List.mapIdx_cons]
    refine ⟨rfl, rfl, hf, ?_⟩
    simp only [hlater]
    exact ih hrest

theorem frame_place : (place fs).map (·.frame) = fs := by
  apply List.ext_getElem
  · simp [place]
  · intro i _ _
    simp [place]

theorem write_place : write (place fs) = fs.flatMap render := by
  rw [write, ← List.flatMap_map, frame_place]

/-- Writing frames and cutting texts undo each other. -/
theorem tokenize_render :
    (∀ text frames, tokenize text = .ok frames → frames.flatMap (·.frame.render) = text) ∧
      ∀ fs : List Frame, (∀ f ∈ fs, ∀ c, f = .emit c ∨ f = .effect c → c ∉ Token.reserved) →
        tokenize (fs.flatMap render) = .ok (place fs) := by
  constructor
  · intro text frames h
    exact (scan_eq_ok.mp h).2
  · intro fs hfs
    have hlegible : ∀ f ∈ fs, f.Legible := by
      intro f hf
      cases f with
      | emit c => exact legible_emit.mpr (hfs _ hf c (Or.inl rfl))
      | effect c => exact legible_effect.mpr (hfs _ hf c (Or.inr rfl))
      | _ => trivial
    have hlaid : Laid 0 0 (place fs) := by
      have hshifted : Laid 0 0 _ := laid_mapIdx hlegible
      simp only [Nat.zero_add] at hshifted
      exact hshifted
    exact scan_eq_ok.mpr ⟨hlaid, write_place⟩

/-- Two marked keys: what follows the second lies two columns past its position. -/
theorem tokenize_render_marked :
    (∀ f ∈ [effect 'x', wait, effect 'y', complete], ∀ c, f = .emit c ∨ f = .effect c →
        c ∉ Token.reserved) ∧
      tokenize ['x', '!', '-', 'y', '!', '|'] =
        .ok [⟨0, 0, .effect 'x'⟩, ⟨1, 2, .wait⟩, ⟨2, 3, .effect 'y'⟩, ⟨3, 5, .complete⟩] ∧
      (place [effect 'x', wait, effect 'y', complete]).flatMap (·.frame.render) =
        ['x', '!', '-', 'y', '!', '|'] := by
  have hkeys : ∀ f ∈ [effect 'x', wait, effect 'y', complete], ∀ c, f = .emit c ∨ f = .effect c →
      c ∉ Token.reserved := by
    simp only [List.forall_mem_cons]
    refine ⟨?_, ?_, ?_, ?_, by simp⟩ <;> rintro c (h | h) <;> cases h <;> decide
  have htext := tokenize_render.2 _ hkeys
  exact ⟨hkeys, htext, tokenize_render.1 _ _ htext⟩

/-- The frame that starts at a column; a marker starts none. -/
def at? (text : List Char) (column : Nat) : Option Frame :=
  (text[column]?.bind ofChar?).map fun
    | .emit c => if text[column + 1]? = some Token.effectMarker then .effect c else .emit c
    | frame => frame

/-- How many frames start before a column of a text without stray markers. -/
def countBefore (text : List Char) (column : Nat) : Nat :=
  column - (text.take column).count Token.effectMarker

theorem at?_append {done : List Char} : at? (done ++ text) (done.length + i) = at? text i := by
  simp [at?, List.getElem?_append_right, Nat.add_assoc]

theorem at?_render (hf : f.Legible) (hrest : rest.head? ≠ some Token.effectMarker) :
    at? (f.render ++ rest) 0 = some f := by
  have hnext : rest[0]? ≠ some Token.effectMarker := by rwa [← List.head?_eq_getElem?]
  cases f with
  | emit c =>
    have hc : ofChar? c = some (.emit c) := hf
    simp [at?, render, hc, hnext]
  | effect c =>
    have hc : ofChar? c = some (.emit c) := hf
    simp [at?, render, hc]
  | _ => rfl

/-- The frames that start in the text of one: itself. -/
theorem filterMap_at?_render (hf : f.Legible) (hrest : rest.head? ≠ some Token.effectMarker)
    {β : Type} (g : Nat → Frame → β) :
    (List.range f.render.length).filterMap (fun i => (at? (f.render ++ rest) i).map (g i)) =
      [g 0 f] := by
  have hfirst := at?_render hf hrest
  cases f with
  | effect c =>
    have hmarker : at? ((effect c).render ++ rest) 1 = none := rfl
    change [0, 1].filterMap _ = _
    simp only [List.filterMap_cons, List.filterMap_nil, hfirst, hmarker, Option.map_some,
      Option.map_none]
  | _ =>
    change [0].filterMap _ = _
    simp only [List.filterMap_cons, List.filterMap_nil, hfirst, Option.map_some]

theorem countBefore_render (hf : f.Legible) :
    countBefore (f.render ++ rest) (f.render.length + i) = countBefore rest i + 1 := by
  have hmarkers : f.render.count Token.effectMarker = if f.isEffect then 1 else 0 := by
    cases f with
    | emit c =>
      have hne : c ≠ Token.effectMarker := by
        rintro rfl
        exact legible_emit.mp hf (by decide)
      simp [render, isEffect, hne]
    | effect c =>
      have hne : c ≠ Token.effectMarker := by
        rintro rfl
        exact legible_effect.mp hf (by decide)
      simp [render, isEffect, hne]
    | _ => rfl
  have hle := (rest.take i).count_le_length (a := Token.effectMarker)
  have := List.length_take_le i rest
  rw [countBefore, List.take_length_add_append, List.count_append, hmarkers, length_render,
    countBefore]
  omega

/-- The frames of a text are those that start at its columns, from left to right. -/
theorem Laid.eq_filterMap (h : Laid position column frames) :
    frames = (List.range (write frames).length).filterMap fun i =>
      (at? (write frames) i).map fun f =>
        ⟨position + countBefore (write frames) i, column + i, f⟩ := by
  induction frames generalizing position column with
  | nil => rfl
  | cons f rest ih =>
    obtain ⟨p, c, frame⟩ := f
    obtain ⟨rfl, rfl, hf, hrest⟩ := h
    have hwrite : write (⟨p, c, frame⟩ :: rest) = frame.render ++ write rest := rfl
    have hlater : rest = (List.range (write rest).length).filterMap fun i =>
        (at? (write rest) i).map fun f =>
          ⟨p + (countBefore (write rest) i + 1), c + (frame.render.length + i), f⟩ := by
      simpa only [Nat.add_assoc, Nat.add_comm 1] using ih hrest
    rw [hwrite, List.length_append, List.range_add, List.filterMap_append, List.filterMap_map,
      filterMap_at?_render hf hrest.head?_write]
    simp only [Function.comp_def, at?_append, countBefore_render hf]
    rw [← hlater]
    simp [countBefore]

/-- The frame at a column, in its place. -/
def standing? (text : List Char) (column : Nat) : Option PositionedFrame :=
  (at? text column).map fun f => ⟨countBefore text column, column, f⟩

theorem lt_length_of_at? (h : at? text column = some f) : column < text.length := by
  by_contra hle
  simp [at?, List.getElem?_eq_none (Nat.le_of_not_lt hle)] at h

theorem tokenize_eq_standing (h : tokenize text = .ok frames) :
    frames = (List.range text.length).filterMap (standing? text) := by
  obtain ⟨hlaid, rfl⟩ := scan_eq_ok.mp h
  have hframes := hlaid.eq_filterMap
  simp only [Nat.zero_add] at hframes
  exact hframes

theorem mem_tokenize {g : PositionedFrame} (h : tokenize text = .ok frames) :
    g ∈ frames ↔ at? text g.column = some g.frame ∧ g.position = countBefore text g.column := by
  rw [tokenize_eq_standing h]
  simp only [List.mem_filterMap, List.mem_range, standing?, Option.map_eq_some_iff]
  constructor
  · rintro ⟨i, -, f, hf, rfl⟩
    exact ⟨hf, rfl⟩
  · rintro ⟨hf, hposition⟩
    refine ⟨g.column, lt_length_of_at? hf, g.frame, hf, ?_⟩
    rw [← hposition]

theorem pairwise_column (h : tokenize text = .ok frames) :
    frames.Pairwise fun f g => f.column < g.column := by
  rw [tokenize_eq_standing h]
  refine List.Pairwise.filterMap _ ?_ List.pairwise_lt_range
  intro i j hij f hf g hg
  obtain ⟨_, _, rfl⟩ := Option.map_eq_some_iff.mp hf
  obtain ⟨_, _, rfl⟩ := Option.map_eq_some_iff.mp hg
  exact hij

theorem at?_of_key (h : text[column]? = some c) (hc : c ∉ Token.reserved) :
    at? text column =
      some (if text[column + 1]? = some Token.effectMarker then .effect c else .emit c) := by
  simp [at?, h, ofChar?_eq_emit.mpr ⟨rfl, hc⟩]

theorem at?_of_token (h : text[column]? = some c) (hc : c ∈ Token.reserved) :
    at? text column = ofChar? c := by
  simp only [Token.reserved, List.mem_cons, List.not_mem_nil, or_false] at hc
  rw [at?, h]
  rcases hc with rfl | rfl | rfl | rfl <;> rfl

/-- What starts at a column is a token, whatever follows it, or a key, marked or not. -/
theorem at?_cases (h : at? text column = some f) : ∃ c, text[column]? = some c ∧
    (c ∈ Token.reserved ∧ ofChar? c = some f ∨ c ∉ Token.reserved ∧
      f = if text[column + 1]? = some Token.effectMarker then .effect c else .emit c) := by
  cases hc : text[column]? with
  | none => simp [at?, hc] at h
  | some c =>
    refine ⟨c, rfl, ?_⟩
    by_cases htoken : c ∈ Token.reserved
    · exact Or.inl ⟨htoken, (at?_of_token hc htoken).symm.trans h⟩
    · exact Or.inr ⟨htoken, Option.some.inj (h.symm.trans (at?_of_key hc htoken))⟩

end Frame

end Marble
