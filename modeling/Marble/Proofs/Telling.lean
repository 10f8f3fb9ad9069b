import Marble.Proofs.Agreement
import Marble.Proofs.Literals

/-! The texts of events tell the events apart, so what is reported to differ is also seen to
differ. -/
namespace Marble

variable {α : Type} {more : Char → Prop}

/-! ### Texts of events -/

theorem readable_sequenceError : Readable more fun e : SequenceError => (text e).toList := by
  have hmessage : Function.Injective SequenceError.message := by
    rintro ⟨m⟩ ⟨n⟩ rfl
    rfl
  have hquoted : Readable (fun _ => False) fun s : String => (Text.quotedString s).toList :=
    readable_quotedString
  have henclosed : Readable more fun e : SequenceError => "SequenceError \x7b message: ".toList ++
      (Text.quotedString e.message).toList ++ ' ' :: ['\x7d'] :=
    (hquoted.comp hmessage).enclosed not_false _ _
  intro x y r s hr hs heq
  exact henclosed hr hs (by simpa [text] using heq)

section

variable [Shown α]

/-- The kinds of notification begin differently, and a parenthesis closes what is in them. -/
theorem readable_notification (h : Unambiguous α) :
    Readable more fun n : Notification α SequenceError => (text n).toList := by
  have hvalue : Readable more fun v : α => "Next(".toList ++ (text v).toList ++ ')' :: [] :=
    h.readable.enclosed (by decide) _ _
  have herror : Readable (fun _ => False) fun e : SequenceError => (text e).toList :=
    readable_sequenceError
  have hcause : Readable more fun e : SequenceError =>
    "Error(".toList ++ (text e).toList ++ ')' :: [] :=
    herror.enclosed not_false _ _
  intro m n r s hr hs heq
  cases m with
  | next v =>
    cases n with
    | next w =>
      obtain ⟨rfl, hrest⟩ := hvalue hr hs (by simpa [text] using heq)
      exact ⟨rfl, hrest⟩
    | error y => simp [text] at heq
    | completed => simp [text] at heq
  | error x =>
    cases n with
    | next w => simp [text] at heq
    | error y =>
      obtain ⟨rfl, hrest⟩ := hcause hr hs (by simpa [text] using heq)
      exact ⟨rfl, hrest⟩
    | completed => simp [text] at heq
  | completed =>
    cases n with
    | next w => simp [text] at heq
    | error y => simp [text] at heq
    | completed => exact ⟨rfl, List.append_cancel_left heq⟩

theorem toList_text_timed (e : Event α SequenceError) :
    (text e).toList = (text e.value).toList ++ '@' :: e.time.text.toList := by
  simp [text]

/-- The notification is read up to the sign behind it, and the instant is all that is left. -/
theorem text_injective (h : Unambiguous α) :
    Function.Injective (text : Event α SequenceError → String) := by
  intro e a heq
  have hchars := congrArg String.toList heq
  rw [toList_text_timed, toList_text_timed] at hchars
  have hnotification : Readable (fun _ => False) fun n : Notification α SequenceError =>
      (text n).toList := readable_notification h
  obtain ⟨hvalue, hrest⟩ := hnotification (ceases_cons.mpr not_false)
    (ceases_cons.mpr not_false) hchars
  have htime : e.time.ticks = a.time.ticks :=
    Nat.repr_inj.mp (String.toList_inj.mp (List.cons.inj hrest).2)
  obtain ⟨s, n⟩ := e
  obtain ⟨t, m⟩ := a
  obtain rfl : s = t := VirtualTime.ext htime
  obtain rfl : n = m := hvalue
  rfl

end

/-! ### Differences that are shown -/

section

variable {ε : Type} [Shown α] [Shown ε] {compare : Compare α} {grid : TimeGrid}
  {pairs : List (Event α ε × Event α ε)} {expected actual : List (Event α ε)} {index : Nat}
  {m : Mismatch} {te ta : String}

theorem one_sided_of_mem_surplusFrom (h : m ∈ surplusFrom index expected actual) :
    m.expected = none ∨ m.actual = none := by
  rcases List.mem_append.mp h with h | h
  · obtain ⟨p, -, rfl⟩ := List.mem_map.mp h
    exact .inr rfl
  · obtain ⟨p, -, rfl⟩ := List.mem_map.mp h
    exact .inl rfl

variable [BEq ε]

theorem exists_of_mem_differing (h : m ∈ differing compare grid index pairs) :
    ∃ e a : Event α ε, e.agrees compare grid a = .ok false ∧
      m.expected = some (text e) ∧ m.actual = some (text a) := by
  obtain ⟨⟨⟨e, a⟩, i⟩, -, hm⟩ := List.mem_filterMap.mp h
  simp only [difference?] at hm
  split at hm
  next hagrees =>
    obtain rfl := Option.some.inj hm
    exact ⟨e, a, hagrees, rfl, rfl⟩
  next => cases hm

/-- A pair that differs has two texts, if the comparer takes everything for equal to itself. -/
theorem ne_of_mem_differing (hinj : Function.Injective (text : Event α ε → String))
    (hself : ∀ e : Event α ε, e.agrees compare grid e = .ok true)
    (h : m ∈ differing compare grid index pairs) (he : m.expected = some te)
    (ha : m.actual = some ta) : te ≠ ta := by
  obtain ⟨e, a, hagrees, hte, hta⟩ := exists_of_mem_differing h
  obtain rfl : text e = te := Option.some.inj (hte.symm.trans he)
  obtain rfl : text a = ta := Option.some.inj (hta.symm.trans ha)
  intro heq
  obtain rfl := hinj heq
  rw [hself e] at hagrees
  cases hagrees

end

theorem agrees_structural_self {ε : Type} [BEq α] [ReflBEq α] [BEq ε] [ReflBEq ε] (grid : TimeGrid)
    (e : Event α ε) : e.agrees .structural grid e = .ok true := by
  refine agrees_eq_ok_true.mpr ⟨rfl, ?_⟩
  cases e.value with
  | next v => exact .next (by simp [Compare.structural])
  | error x => exact .error (beq_self_eq_true x)
  | completed => exact .completed

/-- The texts of events tell them apart: two events with one text are one event, the first pair that
is reported to differ shows two texts, and so does every pair of all that are. -/
structure Telling (α : Type) [Shown α] [BEq α] : Prop where
  events (e a : Event α SequenceError) (h : text e = text a) : e = a
  first (grid : TimeGrid) (actual expected : List (Event α SequenceError)) (index : Nat)
    (te ta : String)
    (h : checkEvents .structural grid actual expected = .error (.eventMismatch index te ta)) :
    te ≠ ta
  every (grid : TimeGrid) (actual expected : List (Event α SequenceError)) (ms : List Mismatch)
    (h : mismatches .structural grid actual expected = .ok ms) (m : Mismatch) (hm : m ∈ ms)
    (te ta : String) (he : m.expected = some te) (ha : m.actual = some ta) : te ≠ ta

theorem Unambiguous.telling [Shown α] [BEq α] [ReflBEq α] (h : Unambiguous α) : Telling α where
  events e a heq := text_injective h heq
  first grid actual expected index te ta hfirst := by
    obtain ⟨-, hcount⟩ | ⟨-, hpairs⟩ := checkEvents_eq_error hfirst
    · cases hcount
    obtain ⟨k, te', ta', heq, -, hhead⟩ := checkPairs_eq_failure hpairs rfl
    obtain ⟨-, rfl, rfl⟩ := Error.eventMismatch.inj heq
    exact ne_of_mem_differing (text_injective h) (agrees_structural_self grid)
      (List.mem_of_head? hhead) rfl rfl
  every grid actual expected ms hall m hm te ta he ha := by
    obtain ⟨-, rfl⟩ := mismatchesFrom_eq_ok.mp hall
    rcases List.mem_append.mp hm with hm | hm
    · exact ne_of_mem_differing (text_injective h) (agrees_structural_self grid) hm he ha
    · rcases one_sided_of_mem_surplusFrom hm with hnone | hnone
      · cases hnone.symm.trans he
      · cases hnone.symm.trans ha

/-- Numbers, texts and lists of numbers are told apart in events, whatever characters they are made
of. -/
theorem telling_values : Telling Int64 ∧ Telling String ∧ Telling (List Int64) :=
  ⟨unambiguous_int.telling, unambiguous_string.telling, unambiguous_int.list.telling⟩

end Marble
