import Marble.Proofs.Expectation
import Marble.Proofs.Refinement

/-! A diagram behind stages that map and filter its values, expected against the diagram that is
refined by them. -/
namespace Marble

variable {α ε φ σ : Type}

namespace Stage

/-- What stages make of a value: those that map and filter add up to a partial function. -/
def act : List (Stage α) → α → Option α
  | [], v => some v
  | .map f :: rest, v => act rest (f v)
  | .filter keep :: rest, v => if keep v then act rest v else none
  | _ :: rest, v => act rest v

theorem through_next (stages : List (Stage α)) (v : α) :
    through stages (.next v) = (act stages v).map .next := by
  induction stages generalizing v with
  | nil => rfl
  | cons stage rest ih =>
    rw [through]
    cases stage with
    | map f => exact ih (f v)
    | filter keep =>
      rw [transform, act]
      split
      · exact ih v
      · rfl
    | inspect name => exact ih v
    | stamp probe => exact ih v

/-- Terminals pass every stage. -/
theorem through_of_isTerminal (stages : List (Stage α)) {n : Signal α} (hn : n.isTerminal) :
    through stages n = some n := by
  induction stages with
  | nil => rfl
  | cons stage rest ih =>
    have hstage : stage.transform n = some n := by
      cases n with
      | next v => cases hn
      | error e => cases stage <;> rfl
      | completed => cases stage <;> rfl
    rw [through, hstage, Option.bind_some, ih]

end Stage

namespace Timeline

variable {tl : List (Event α ε)} {e : Event α ε} {offset : VirtualTime}

/-- Nothing follows the first terminal. -/
def IsWhole (tl : List (Event α ε)) : Prop := ∀ e ∈ tl.dropLast, e.value.isTerminal = false

instance (tl : List (Event α ε)) : Decidable (IsWhole tl) :=
  inferInstanceAs (Decidable (∀ e ∈ tl.dropLast, e.value.isTerminal = false))

theorem untilTerminal_eq_self : untilTerminal tl = tl ↔ IsWhole tl := by
  induction tl with
  | nil => simp [untilTerminal, IsWhole]
  | cons e rest ih =>
    rw [untilTerminal]
    cases rest with
    | nil => simp [untilTerminal, IsWhole]
    | cons x rest =>
      simp only [IsWhole, List.dropLast_cons_cons, List.forall_mem_cons]
      cases he : e.value.isTerminal with
      | true => simp
      | false => simpa [IsWhole] using ih

theorem untilTerminal_shift (offset : VirtualTime) (tl : List (Event α ε)) :
    untilTerminal (shift offset tl) = shift offset (untilTerminal tl) := by
  induction tl with
  | nil => rfl
  | cons e rest ih =>
    change (if e.value.isTerminal then [_] else _ :: untilTerminal (shift offset rest)) = _
    rw [ih, untilTerminal]
    split <;> rfl

theorem isWhole_shift : IsWhole (shift offset tl) ↔ IsWhole tl := by
  simp [IsWhole, shift, ← List.map_dropLast]

@[simp] theorem length_shift : (shift offset tl).length = tl.length := List.length_map ..

theorem through_shift (stages : List (Stage α)) (offset : VirtualTime)
    (tl : List (Timed (Signal α))) :
    through stages (shift offset tl) = shift offset (through stages tl) := by
  simp only [through, shift, List.filterMap_map, List.map_filterMap]
  congr 1
  funext e
  cases h : Stage.through stages e.value <;> simp [h]

/-- The last time of a timeline in order is the latest. -/
theorem le_lastTime {β : Type} {tl : List (Timed β)} {t : VirtualTime}
    (h : tl.Pairwise fun x y => x.time ≤ y.time) : ∀ e ∈ tl, e.time ≤ lastTime tl t := by
  intro e he
  obtain ⟨init, last, rfl⟩ : ∃ init last, tl = init ++ [last] :=
    ⟨tl.dropLast, tl.getLast (List.ne_nil_of_mem he), (List.dropLast_append_getLast _).symm⟩
  have hlast : lastTime (init ++ [last]) t = last.time := by simp [lastTime]
  rw [hlast]
  rcases List.mem_append.mp he with he | he
  · exact (List.pairwise_append.mp h).2.2 e he last (by simp)
  · exact (congrArg Timed.time (List.mem_singleton.mp he)).le

/-- What is left of the notifications of a diagram behind some stages is what the refined diagram
shows. -/
theorem through_notifications {d d' : Diagram α SequenceError φ} {stages : List (Stage α)}
    (h : d'.cells = Diagram.refineCells (Stage.act stages) d.cells) (unit : UnitOfTime) :
    through stages (d.notifications unit) = d'.notifications unit := by
  simp only [through, Diagram.notifications, h, Diagram.refineCells, List.filterMap_filterMap]
  congr 1
  funext c
  rcases c with ⟨p, n | f⟩
  · cases n with
    | next v => cases hv : Stage.act stages v <;> simp [Cell.refine, Stage.through_next, hv]
    | error e => simp [Cell.refine, Stage.through_of_isTerminal stages (n := .error e) rfl]
    | completed => simp [Cell.refine, Stage.through_of_isTerminal stages (n := .completed) rfl]
  · rfl

end Timeline

section

variable [BEq α] [ReflBEq α] [BEq ε] [ReflBEq ε] [Shown α] [Shown ε]

theorem checkPairs_self (grid : TimeGrid) (tl : List (Event α ε)) (index : Nat) :
    checkPairs .structural grid index tl tl = .ok () := by
  induction tl generalizing index with
  | nil => rfl
  | cons e rest ih =>
    have he : e.agrees .structural grid e = .ok true := by
      rw [Timed.agrees]
      cases e.value <;> simp [Compare.structural]
    rw [checkPairs, he]
    exact ih (index + 1)

/-- A timeline agrees with itself; once it is cut, it has become too short. -/
theorem checkEvents_untilTerminal (grid : TimeGrid) (tl : List (Event α ε)) :
    checkEvents .structural grid (Timeline.untilTerminal tl) tl =
      if Timeline.IsWhole tl then .ok ()
      else .error (.countMismatch tl.length (Timeline.untilTerminal tl).length) := by
  rw [checkEvents]
  split_ifs with hlength hwhole hwhole
  · rw [Timeline.untilTerminal_eq_self.mpr hwhole] at hlength
    exact absurd rfl hlength
  · rfl
  · rw [Timeline.untilTerminal_eq_self.mpr hwhole]
    exact checkPairs_self grid tl 0
  · have hprefix := (Timeline.prefix_untilTerminal tl).eq_of_length (not_not.mp hlength)
    exact absurd (Timeline.untilTerminal_eq_self.mp hprefix) hwhole

end

namespace Engine

theorem le_releaseAt_of_mem {d : Diagram α SequenceError (Effect σ)} {options : ScopeOptions}
    {t : VirtualTime}
    (h : (d.notifications options.unit).Pairwise fun x y => x.time ≤ y.time) :
    ∀ e ∈ expected d options t, e.time ≤ releaseAt d options t := fun e he =>
  (Timeline.le_lastTime (Timeline.pairwise_shift t h) e he).trans (VirtualTime.le_add _ _)

variable [Shown α] [BEq α] [ReflBEq α]

/-- The text in which the frames of dropped values are silent is a diagram under the refined legend,
which can be made from the refined pairs. A cold source that replays the whole diagram meets it
behind the stages, unless something follows its first terminal: that is then missing. -/
theorem decides_refined {stages : List (Stage α)} (hstages : ∀ stage ∈ stages, stage.isSilent)
    {text : String} {legend : Legend α SequenceError (Effect σ)}
    {d : Diagram α SequenceError (Effect σ)} (hd : Diagram.ofText text legend = .ok d) :
    (∀ pairs, Legend.ofPairs pairs = .ok legend →
      Legend.ofPairs (LegendEntry.refineAll (Stage.act stages) pairs) =
        .ok (legend.refine (Stage.act stages))) ∧
    ∃ d', Diagram.ofText (Diagram.mask legend (Stage.act stages) text)
        (legend.refine (Stage.act stages)) = .ok d' ∧
      ∀ {E : Engine α σ} {b : Bench α σ} {s : ScopeRef} {src : SourceRef} {scope : Scope α σ}
        {source : Source α} {k : Clock (Action α σ)}, b.Ready s scope k src source →
        source.events = d.notifications scope.options.unit →
        E.Decides s ⟨.source src, stages⟩ d' .structural b scope k
          (d.notifications scope.options.unit).length
          (if Timeline.IsWhole (d'.notifications scope.options.unit) then .ok ()
          else .error (.countMismatch (d'.notifications scope.options.unit).length
            (Timeline.untilTerminal (d'.notifications scope.options.unit)).length)) := by
  obtain ⟨d', hd', hcells⟩ : ∃ d', Diagram.ofText (Diagram.mask legend (Stage.act stages) text)
      (legend.refine (Stage.act stages)) = .ok d' ∧
        d'.cells = Diagram.refineCells (Stage.act stages) d.cells :=
    ⟨_, Diagram.ofText_mask hd, rfl⟩
  refine ⟨fun pairs hpairs => Legend.ofPairs_refineAll hpairs, d', hd', ?_⟩
  intro E b s src scope source k h hevents
  have hlate : ∀ e ∈ Timeline.untilTerminal (expected d' scope.options k.now),
      e.time ≤ releaseAt d' scope.options k.now := fun e he =>
    le_releaseAt_of_mem (Diagram.pairwise_notifications hd' scope.options.unit) e
      ((Timeline.prefix_untilTerminal _).subset he)
  have hobserved : Timeline.observed stages k.now (releaseAt d' scope.options k.now) source.events =
      Timeline.untilTerminal (expected d' scope.options k.now) := by
    rw [Timeline.observed, hevents, Timeline.through_shift, Timeline.through_notifications hcells]
    exact List.filter_eq_self.mpr fun e he => decide_eq_true (hlate e he)
  have hdecides := decides_cold (E := E) h
    (hevents ▸ Diagram.pairwise_notifications hd scope.options.unit) stages hstages d' .structural
  rw [hobserved, checkEvents_untilTerminal, hevents] at hdecides
  simpa only [expected, Timeline.isWhole_shift, Timeline.untilTerminal_shift,
    Timeline.length_shift] using hdecides

theorem decides_refined_truncated :
    (Callback.engine 6).Decides ⟨0⟩ ⟨.source ⟨0⟩, [.filter (· != 1), .map (· + 1)]⟩
      ⟨"--b|b", ⟨[(⟨'b'⟩, .value 3)], none⟩,
        [(2, .notify (.next 3)), (3, .notify .completed), (4, .notify (.next 3))]⟩ .structural
      ((({} : Bench Int64 (Callback Int64)).beginScope default).2.addSource .cold ⟨0⟩
        [⟨.clamp 0, .next 1⟩, ⟨.clamp 20, .next 2⟩, ⟨.clamp 30, .completed⟩,
          ⟨.clamp 40, .next 2⟩]).2
      (Scope.begun ⟨0⟩ default) {} 4 (.error (.countMismatch 3 2)) := by
  have hstages : ∀ stage ∈ [Stage.filter (· != (1 : Int64)), .map (· + 1)], stage.isSilent := by
    simp [Stage.isSilent]
  have hd : Diagram.ofText "a-b|b" ⟨[(⟨'a'⟩, .value 1), (⟨'b'⟩, .value 2)], none⟩ =
      .ok (⟨_, _, [(0, .notify (.next 1)), (2, .notify (.next 2)), (3, .notify .completed),
        (4, .notify (.next 2))]⟩ : Diagram Int64 SequenceError (Effect (Callback Int64))) := rfl
  obtain ⟨-, d', hd', hdecides⟩ := decides_refined hstages hd
  obtain rfl := Except.ok.inj hd'
  exact hdecides (Bench.ready_beginScope {} default _) rfl

end Engine

end Marble
