import Marble.Json.Domain
import Mathlib.Data.List.Forall2

/-! What each JSON value is read as. Events are read back from their JSON form, though other
spellings of them are read too, and no width of zero is read. -/
namespace Marble

variable {α β ε : Type} {j : Json} {names : List String} {contents : List Json}

/-! ### Shapes of values -/

namespace Json

/-- A record of contents: an object in which each name stands for one of them, or the array of them
in the order of the names. -/
inductive RecordOf (names : List String) : Json → List Json → Prop
  | named {fields : List (String × Json)} {contents : List Json}
    (h : List.Forall₂ (fun name content => fields.lookup name = some content) names contents) :
    RecordOf names (.object fields) contents
  | ordered {contents : List Json} (h : contents.length = names.length) :
    RecordOf names (.array contents) contents

/-- A variant: its name alone, or an object whose one field has its name and content. -/
inductive VariantOf (name : String) : Json → Option Json → Prop
  | alone : VariantOf name (.string name) none
  | filled (content : Json) : VariantOf name (.object [(name, content)]) (some content)

theorem mapM_lookup_eq_some {fields : List (String × Json)} :
    (names.mapM fun name => fields.lookup name) = some contents ↔
      List.Forall₂ (fun name content => fields.lookup name = some content) names contents := by
  induction names generalizing contents with
  | nil => cases contents <;> simp
  | cons name names ih =>
    rw [List.mapM_cons, List.forall₂_cons_left_iff]
    simp only [← ih, Option.bind_eq_bind, Option.bind_eq_some_iff, Option.pure_def,
      Option.some.injEq]
    constructor
    · rintro ⟨content, hcontent, rest, hrest, rfl⟩
      exact ⟨content, rest, hcontent, hrest, rfl⟩
    · rintro ⟨content, rest, hcontent, hrest, rfl⟩
      exact ⟨content, hcontent, rest, hrest, rfl⟩

theorem record?_eq_some : j.record? names = some contents ↔ RecordOf names j contents := by
  constructor
  · intro h
    cases j with
    | object fields => exact .named (mapM_lookup_eq_some.mp h)
    | array items =>
      obtain ⟨hlength, rfl⟩ : items.length = names.length ∧ items = contents := by
        simpa [record?] using h
      exact .ordered hlength
    | _ => cases h
  · rintro (h | h)
    · exact mapM_lookup_eq_some.mpr h
    · simp [record?, h]

theorem RecordOf.length (h : RecordOf names j contents) : contents.length = names.length := by
  cases h with
  | named h => exact h.length_eq.symm
  | ordered h => exact h

theorem variant?_eq_some {name : String} {content : Option Json} :
    j.variant? = some (name, content) ↔ VariantOf name j content := by
  constructor
  · intro h
    unfold variant? at h
    split at h
    · cases h
      exact .alone
    · cases h
      exact .filled _
    · cases h
  · rintro (_ | content) <;> rfl

theorem ticks?_eq_some {n : Nat} : j.ticks? = some n ↔ j = .int n ∧ n ≤ maxTicks := by
  constructor
  · intro h
    unfold ticks? at h
    split at h
    next m =>
      obtain ⟨⟨hpos, hle⟩, rfl⟩ : (0 ≤ m ∧ m.toNat ≤ maxTicks) ∧ m.toNat = n := by simpa using h
      exact ⟨by rw [Int.toNat_of_nonneg hpos], hle⟩
    next => cases h
  · rintro ⟨rfl, hle⟩
    simp [ticks?, hle]

end Json

open Json (RecordOf VariantOf)

theorem NotificationKind.ofName?_eq_some {name : String} {kind : NotificationKind} :
    ofName? name = some kind ↔ name = kind.name := by
  constructor
  · intro h
    unfold ofName? at h
    split at h
    · cases h
      rfl
    · cases h
      rfl
    · cases h
      rfl
    · cases h
  · rintro rfl
    cases kind <;> rfl

/-! ### What is read -/

/-- What is made of a number of ticks is read from the whole number of its ticks. -/
theorem ticks?_bind_eq_some {ω : Type} {make? : Nat → Option ω} {ticks : ω → Nat} {w : ω}
    (hle : ticks w ≤ maxTicks) (hmake : ∀ n ≤ maxTicks, make? n = some w ↔ ticks w = n) :
    j.ticks?.bind make? = some w ↔ j = .int (ticks w) := by
  simp only [Option.bind_eq_some_iff, Json.ticks?_eq_some]
  constructor
  · rintro ⟨n, ⟨rfl, hn⟩, hw⟩
    rw [(hmake n hn).mp hw]
  · rintro rfl
    exact ⟨ticks w, ⟨rfl, hle⟩, (hmake _ hle).mpr rfl⟩

/-- A width is made of any number of ticks that is not refused. -/
theorem toOption_width_eq_some {ω : Type} (make : (n : Nat) → 0 < n → n ≤ maxTicks → ω)
    {ticks : ω → Nat} {reason : String} {n : Nat} {w : ω}
    (hticks : ∀ n hpos hle, ticks (make n hpos hle) = n)
    (hmake : ∃ hpos hle, make (ticks w) hpos hle = w) :
    (if h : 0 < n ∧ n ≤ maxTicks then Except.ok (make n h.1 h.2) else .error reason).toOption =
      some w ↔ ticks w = n := by
  constructor
  · intro h
    split at h
    next hrange =>
      cases h
      exact hticks n hrange.1 hrange.2
    next => cases h
  · rintro rfl
    obtain ⟨hpos, hle, hw⟩ := hmake
    rw [dif_pos ⟨hpos, hle⟩, hw]
    rfl

theorem decode_time {t : VirtualTime} : decode j = some t ↔ j = .int t.ticks := by
  refine ticks?_bind_eq_some t.ticks_le fun n hn => ?_
  rw [VirtualTime.ofNat?, dif_pos hn, Option.some.injEq, VirtualTime.ext_iff]
  exact eq_comm

theorem decode_unit {u : UnitOfTime} : decode j = some u ↔ j = .int u.ticks :=
  ticks?_bind_eq_some u.ticks_le fun _ _ =>
    toOption_width_eq_some UnitOfTime.mk (fun _ _ _ => rfl) ⟨u.ticks_pos, u.ticks_le, rfl⟩

theorem decode_grid {g : TimeGrid} : decode j = some g ↔ j = .int g.ticks :=
  ticks?_bind_eq_some g.ticks_le fun _ _ =>
    toOption_width_eq_some TimeGrid.mk (fun _ _ _ => rfl) ⟨g.ticks_pos, g.ticks_le, rfl⟩

theorem decode_int {n : Int64} : decode j = some n ↔ j = .int n.toInt := by
  constructor
  · intro h
    cases j with
    | int m =>
      obtain ⟨⟨hmin, hmax⟩, hn⟩ := Option.ite_none_right_eq_some.mp h
      cases hn
      have hlast : Int64.maxValue.toInt < 2 ^ 63 := by decide
      rw [Int64.toInt_ofInt_of_le hmin (Int.lt_of_le_of_lt hmax hlast)]
    | _ => cases h
  · rintro rfl
    exact (if_pos ⟨n.minValue_le_toInt, n.toInt_le⟩).trans (congrArg some n.ofInt_toInt)

theorem decode_string {s : String} : decode j = some s ↔ j = .string s := by
  constructor
  · intro h
    cases j with
    | string t =>
      cases h
      rfl
    | _ => cases h
  · rintro rfl
    rfl

theorem decode_sequenceError {e : SequenceError} :
    decode j = some e ↔ RecordOf ["message"] j [.string e.message] := by
  constructor
  · intro h
    obtain ⟨contents, hj, hcontents⟩ := Option.bind_eq_some_iff.mp h
    have hrecord := Json.record?_eq_some.mp hj
    obtain ⟨message, rfl⟩ := List.length_eq_one_iff.mp hrecord.length
    obtain ⟨s, hs, he⟩ := Option.bind_eq_some_iff.mp hcontents
    cases he
    exact decode_string.mp hs ▸ hrecord
  · intro h
    exact Option.bind_eq_some_iff.mpr ⟨_, Json.record?_eq_some.mpr h, rfl⟩

/-- The JSON values that stand for a notification. A completion has no content, but `null` may stand
in its place. -/
inductive Notification.Spells [Decode α] [Decode ε] : Json → Notification α ε → Prop
  | next {content : Json} {v : α} (h : decode content = some v) :
    Spells (.object [("Next", content)]) (.next v)
  | error {content : Json} {e : ε} (h : decode content = some e) :
    Spells (.object [("Error", content)]) (.error e)
  | completed : Spells (.string "Completed") .completed
  | emptied : Spells (.object [("Completed", .null)]) .completed

theorem decode_notification [Decode α] [Decode ε] {n : Notification α ε} :
    decode j = some n ↔ Notification.Spells j n := by
  constructor
  · intro h
    obtain ⟨⟨name, content⟩, hj, h⟩ := Option.bind_eq_some_iff.mp h
    have hvariant := Json.variant?_eq_some.mp hj
    obtain ⟨kind, hkind, h⟩ := Option.bind_eq_some_iff.mp h
    obtain rfl := NotificationKind.ofName?_eq_some.mp hkind
    -- four of the six ways to put a kind and a content together are read
    cases hvariant with
    | alone =>
      cases kind with
      | completed =>
        cases h
        exact .completed
      | _ => cases h
    | filled content =>
      cases kind with
      | next =>
        have h : ((decode content).bind fun v : α => some (.next v)) = some n := h
        obtain ⟨v, hv, hn⟩ := Option.bind_eq_some_iff.mp h
        cases hn
        exact .next hv
      | error =>
        have h : ((decode content).bind fun e : ε => some (.error e)) = some n := h
        obtain ⟨e, he, hn⟩ := Option.bind_eq_some_iff.mp h
        cases hn
        exact .error he
      | completed =>
        cases content with
        | null =>
          cases h
          exact .emptied
        | _ => cases h
  · intro h
    cases h with
    | next h =>
      change ((decode _).bind fun v : α => some (Notification.next v)) = _
      exact Option.bind_eq_some_iff.mpr ⟨_, h, rfl⟩
    | error h =>
      change ((decode _).bind fun e : ε => some (Notification.error e)) = _
      exact Option.bind_eq_some_iff.mpr ⟨_, h, rfl⟩
    | completed => rfl
    | emptied => rfl

theorem decode_timed [Decode β] {r : Timed β} : decode j = some r ↔
    ∃ time value, RecordOf ["time", "value"] j [time, value] ∧
      decode time = some r.time ∧ decode value = some r.value := by
  constructor
  · intro h
    obtain ⟨contents, hj, h⟩ := Option.bind_eq_some_iff.mp h
    have hrecord := Json.record?_eq_some.mp hj
    obtain ⟨time, value, rfl⟩ := List.length_eq_two.mp hrecord.length
    obtain ⟨t, ht, h⟩ := Option.bind_eq_some_iff.mp h
    obtain ⟨v, hv, hr⟩ := Option.bind_eq_some_iff.mp h
    cases hr
    exact ⟨time, value, hrecord, ht, hv⟩
  · rintro ⟨time, value, hrecord, ht, hv⟩
    refine Option.bind_eq_some_iff.mpr ⟨_, Json.record?_eq_some.mpr hrecord, ?_⟩
    exact Option.bind_eq_some_iff.mpr ⟨_, ht, Option.bind_eq_some_iff.mpr ⟨_, hv, rfl⟩⟩

/-- An event may stand in an array, and a completion may have `null` for its content. -/
example : decode (.array [.int 5, .object [("Completed", .null)]]) =
    some (⟨.clamp 5, .completed⟩ : Event Int64 SequenceError) := by
  rfl

/-! ### Events that are read back -/

/-- Every value has a JSON form, and that is read as the value. -/
def ReadsBack (α : Type) [Encode α] [Decode α] : Prop :=
  ∀ x : α, ∃ j, encode x = .ok j ∧ decode j = some x

theorem readsBack_time : ReadsBack VirtualTime := fun _ => ⟨_, rfl, decode_time.mpr rfl⟩

theorem readsBack_int : ReadsBack Int64 := fun _ => ⟨_, rfl, decode_int.mpr rfl⟩

theorem readsBack_string : ReadsBack String := fun _ => ⟨_, rfl, decode_string.mpr rfl⟩

theorem readsBack_sequenceError : ReadsBack SequenceError := by
  intro e
  exact ⟨_, rfl, decode_sequenceError.mpr (.named (.cons rfl .nil))⟩

section

variable [Encode α] [Decode α] [Encode ε] [Decode ε]

theorem ReadsBack.notification (hvalue : ReadsBack α) (hcause : ReadsBack ε) :
    ReadsBack (Notification α ε) := by
  intro n
  cases n with
  | next v =>
    obtain ⟨content, hform, hread⟩ := hvalue v
    refine ⟨.object [("Next", content)], ?_, decode_notification.mpr (.next hread)⟩
    change (encode v >>= _) = _
    rw [hform]
    rfl
  | error e =>
    obtain ⟨content, hform, hread⟩ := hcause e
    refine ⟨.object [("Error", content)], ?_, decode_notification.mpr (.error hread)⟩
    change (encode e >>= _) = _
    rw [hform]
    rfl
  | completed => exact ⟨_, rfl, decode_notification.mpr .completed⟩

theorem ReadsBack.timed (h : ReadsBack α) : ReadsBack (Timed α) := by
  intro r
  obtain ⟨time, htime, hinstant⟩ := readsBack_time r.time
  obtain ⟨value, hvalue, hread⟩ := h r.value
  refine ⟨.object [("time", time), ("value", value)], ?_,
    decode_timed.mpr ⟨time, value, ?_, hinstant, hread⟩⟩
  · change (encode r.time >>= fun time => encode r.value >>= _) = _
    rw [htime, hvalue]
    rfl
  · exact .named (.cons rfl (.cons rfl .nil))

end

/-! ### Widths -/

/-- Widths are read from the whole numbers between one and the last tick, each as the width of so
many ticks, and from nothing else. -/
def ReadsPositive (ω : Type) [Decode ω] (ticks : ω → Nat) : Prop :=
  ∀ (j : Json) (w : ω), decode j = some w ↔
    ∃ n : Nat, 1 ≤ n ∧ n ≤ maxTicks ∧ j = .int n ∧ ticks w = n

/-- The start of the cell an instant lies in, for cells as wide as a number of ticks says. By zero
nothing can be divided, and there is none. -/
def VirtualTime.truncateBy? (t : VirtualTime) (width : Nat) : Option VirtualTime :=
  if width = 0 then none
  else some ⟨t.ticks - t.ticks % width, Nat.le_trans (Nat.sub_le ..) t.ticks_le⟩

theorem readsPositive_of {ω : Type} [Decode ω] {ticks : ω → Nat}
    (hread : ∀ (j : Json) (w : ω), decode j = some w ↔ j = .int (ticks w))
    (hpos : ∀ w, 0 < ticks w) (hle : ∀ w, ticks w ≤ maxTicks) : ReadsPositive ω ticks := by
  intro j w
  rw [hread]
  constructor
  · rintro rfl
    exact ⟨ticks w, hpos w, hle w, rfl, rfl⟩
  · rintro ⟨n, -, -, rfl, rfl⟩
    rfl

theorem readsPositive_unit : ReadsPositive UnitOfTime UnitOfTime.ticks :=
  readsPositive_of (fun _ _ => decode_unit) UnitOfTime.ticks_pos UnitOfTime.ticks_le

theorem readsPositive_grid : ReadsPositive TimeGrid TimeGrid.ticks :=
  readsPositive_of (fun _ _ => decode_grid) TimeGrid.ticks_pos TimeGrid.ticks_le

theorem truncateBy?_ticks (t : VirtualTime) (g : TimeGrid) :
    t.truncateBy? g.ticks = some (t.truncate g) :=
  if_neg (Nat.ne_of_gt g.ticks_pos)

/-- What is refused as a grid is what nothing can be divided by. -/
theorem truncateBy?_ticks? (j : Json) (t : VirtualTime) :
    j.ticks?.bind t.truncateBy? = (decode j : Option TimeGrid).map t.truncate := by
  cases hgrid : (decode j : Option TimeGrid) with
  | some g =>
    obtain rfl := decode_grid.mp hgrid
    have hticks : (Json.int g.ticks).ticks? = some g.ticks :=
      Json.ticks?_eq_some.mpr ⟨rfl, g.ticks_le⟩
    rw [hticks]
    exact truncateBy?_ticks t g
  | none =>
    refine Option.bind_eq_none_iff.mpr ?_
    intro n hn
    obtain ⟨rfl, hle⟩ := Json.ticks?_eq_some.mp hn
    -- any number within the range but zero would have made a grid
    apply if_pos
    by_contra hpos
    have hread : decode (.int n) = some (⟨n, Nat.pos_of_ne_zero hpos, hle⟩ : TimeGrid) :=
      decode_grid.mpr rfl
    rw [hgrid] at hread
    cases hread

/-- Events of numbers and of texts are read back from their JSON form, each as the event it was. A
width that is read is at least one tick: zero is refused, by which truncating an instant would have
divided. -/
theorem events_readsBack :
    (ReadsBack (Event Int64 SequenceError) ∧ ReadsBack (Event String SequenceError)) ∧
      (ReadsPositive UnitOfTime UnitOfTime.ticks ∧ ReadsPositive TimeGrid TimeGrid.ticks) ∧
      ∀ (j : Json) (t : VirtualTime),
        j.ticks?.bind t.truncateBy? = (decode j : Option TimeGrid).map t.truncate := by
  have hints : ReadsBack (Event Int64 SequenceError) :=
    (readsBack_int.notification readsBack_sequenceError).timed
  have htexts : ReadsBack (Event String SequenceError) :=
    (readsBack_string.notification readsBack_sequenceError).timed
  exact ⟨⟨hints, htexts⟩, ⟨readsPositive_unit, readsPositive_grid⟩, truncateBy?_ticks?⟩

end Marble
