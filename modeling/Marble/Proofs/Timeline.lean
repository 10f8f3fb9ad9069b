import Marble.Proofs.Time

/-! Timelines in the order of their times, and timelines cut after the first terminal. -/
namespace Marble.Timeline

variable {α β ε : Type}

/-- Events in the order of their times; events of one instant stay in the order they have. -/
def sorted (tl : List (Timed β)) : List (Timed β) := tl.insertionSort fun x y => x.time ≤ y.time

/-- Puts an event behind all that come no later. -/
def insert (e : Timed β) (tl : List (Timed β)) : List (Timed β) :=
  tl.orderedInsert (fun x y => x.time < y.time) e

/-- A timeline up to its first terminal, which still belongs to it. -/
def untilTerminal : List (Event α ε) → List (Event α ε)
  | [] => []
  | e :: rest => if e.value.isTerminal then [e] else e :: untilTerminal rest

variable {tl : List (Timed β)} {e x : Timed β} {limit : VirtualTime}

theorem insert_cons :
    insert e (x :: tl) = if e.time < x.time then e :: x :: tl else x :: insert e tl :=
  rfl

theorem insert_of_forall_lt (h : ∀ x ∈ tl, e.time < x.time) : insert e tl = e :: tl := by
  cases tl with
  | nil => rfl
  | cons x rest => rw [insert_cons, if_pos (h x (by simp))]

/-- Whether the later of two events is put in its place first or last makes no difference. -/
theorem orderedInsert_insert (x e : Timed β) (tl : List (Timed β)) :
    (insert e tl).orderedInsert (fun x y => x.time ≤ y.time) x =
      insert e (tl.orderedInsert (fun x y => x.time ≤ y.time) x) := by
  induction tl with
  | nil =>
    rcases lt_or_ge e.time x.time with h | h
    · simp [insert, h, not_le.mpr h]
    · simp [insert, h, not_lt.mpr h]
  | cons y rest ih =>
    rw [insert_cons, List.orderedInsert_cons]
    rcases lt_or_ge e.time y.time with hey | hey <;> rcases lt_or_ge y.time x.time with hyx | hyx
    · have hex := hey.trans hyx
      simp [insert_cons, hey, not_le.mpr hyx, not_le.mpr hex]
    · rcases lt_or_ge e.time x.time with hex | hex
      · simp [insert_cons, hey, hyx, hex, not_le.mpr hex]
      · simp [insert_cons, hey, hyx, hex, not_lt.mpr hex]
    · simp [insert_cons, not_lt.mpr hey, not_le.mpr hyx, ih]
    · have hxe := hyx.trans hey
      simp [insert_cons, not_lt.mpr hey, hyx, not_lt.mpr hxe]

/-- The last event of a timeline is put behind all that come no later. -/
theorem sorted_concat (tl : List (Timed β)) (e : Timed β) :
    sorted (tl ++ [e]) = insert e (sorted tl) := by
  induction tl with
  | nil => rfl
  | cons x rest ih =>
    change (sorted (rest ++ [e])).orderedInsert _ x = insert e ((sorted rest).orderedInsert _ x)
    rw [ih, orderedInsert_insert]

theorem pairwise_sorted (tl : List (Timed β)) : (sorted tl).Pairwise fun x y => x.time ≤ y.time :=
  haveI : Std.Total fun x y : Timed β => x.time ≤ y.time := ⟨fun x y => le_total x.time y.time⟩
  haveI : IsTrans (Timed β) fun x y => x.time ≤ y.time := ⟨fun _ _ _ => le_trans⟩
  List.pairwise_insertionSort _ tl

theorem sorted_of_pairwise (h : tl.Pairwise fun x y => x.time ≤ y.time) : sorted tl = tl :=
  h.insertionSort_eq

theorem filter_insert {p : Timed β → Bool} (h : tl.Pairwise fun x y => x.time ≤ y.time) :
    (insert e tl).filter p = if p e then insert e (tl.filter p) else tl.filter p := by
  induction tl with
  | nil => simp [insert, List.filter_cons]
  | cons x rest ih =>
    have hrest := (List.pairwise_cons.mp h).2
    rw [insert_cons]
    split
    next hlt =>
      have hall : ∀ y ∈ (x :: rest).filter p, e.time < y.time := fun y hy =>
        VirtualTime.lt_of_pairwise h hlt y (List.mem_of_mem_filter hy)
      rw [insert_of_forall_lt hall, List.filter_cons]
    next hlt =>
      rw [List.filter_cons, ih hrest, List.filter_cons]
      cases p x <;> cases p e <;> simp [insert_cons, hlt]

theorem filter_eq_nil_of_lt (h : ∀ x ∈ tl, limit < x.time) :
    tl.filter (fun x => decide (x.time ≤ limit)) = [] := by
  apply List.filter_eq_nil_iff.mpr
  intro x hx
  simpa using h x hx

theorem prefix_untilTerminal (tl : List (Event α ε)) : untilTerminal tl <+: tl := by
  induction tl with
  | nil => exact List.prefix_rfl
  | cons e rest ih =>
    rw [untilTerminal]
    split
    · exact List.cons_prefix_cons.mpr ⟨rfl, List.nil_prefix⟩
    · exact List.cons_prefix_cons.mpr ⟨rfl, ih⟩

/-- In the order of time, it makes no difference whether what comes after an instant is left out
before or after the cut. -/
theorem untilTerminal_filter {tl : List (Event α ε)} (h : tl.Pairwise fun x y => x.time ≤ y.time) :
    untilTerminal (tl.filter fun x => decide (x.time ≤ limit)) =
      (untilTerminal tl).filter fun x => decide (x.time ≤ limit) := by
  induction tl with
  | nil => rfl
  | cons x rest ih =>
    have hrest := (List.pairwise_cons.mp h).2
    rcases le_or_gt x.time limit with hle | hlt
    · rw [List.filter_cons_of_pos (by simpa using hle), untilTerminal, untilTerminal, ih hrest]
      split <;> simp [hle]
    · have hall := VirtualTime.lt_of_pairwise h hlt
      have hcut : ∀ y ∈ untilTerminal (x :: rest), limit < y.time :=
        fun y hy => hall y ((prefix_untilTerminal _).subset hy)
      rw [filter_eq_nil_of_lt hall, filter_eq_nil_of_lt hcut, untilTerminal]

end Marble.Timeline
