import Marble.Element
import Mathlib

/-! Texts that say what they show: numerals, quoted literals and lists. What is shown can be read
off the beginning of a longer text, so parts that are put one behind the other are told apart. -/
namespace Marble

variable {α β : Type} {more more' : Char → Prop} {f : α → List Char} {close : Char}
  {r s xs ys : List Char}

/-! ### Reading the beginning of a text -/

/-- What follows does not begin with one more character of what comes before. -/
def Ceases (more : Char → Prop) (rest : List Char) : Prop := ∀ c ∈ rest.head?, ¬more c

/-- Where the beginning of a text shows a value and the rest ceases, there is one way only to read
it. -/
def Readable (more : Char → Prop) (f : α → List Char) : Prop :=
  ∀ ⦃x y r s⦄, Ceases more r → Ceases more s → f x ++ r = f y ++ s → x = y ∧ r = s

theorem ceases_cons {c : Char} : Ceases more (c :: r) ↔ ¬more c := by simp [Ceases]

namespace Readable

theorem comp (h : Readable more f) {g : β → α} (hg : Function.Injective g) :
    Readable more (f ∘ g) := by
  intro x y r s hr hs heq
  obtain ⟨hxy, hrest⟩ := h hr hs heq
  exact ⟨hg hxy, hrest⟩

/-- What is written in certain characters is read as far as they go. -/
theorem of_forall_mem (hf : Function.Injective f) (hmore : ∀ x, ∀ c ∈ f x, more c) :
    Readable more f := by
  intro x y r s hr hs heq
  -- one of both is the other with some characters in front of what follows it, but there can be
  -- none
  rcases List.append_eq_append_iff.mp heq with ⟨as, hy, rfl⟩ | ⟨as, hx, rfl⟩
  · cases as with
    | nil => exact ⟨hf (by simpa using hy.symm), rfl⟩
    | cons c as => exact absurd (hmore y c (by simp [hy])) (hr c rfl)
  · cases as with
    | nil => exact ⟨hf (by simpa using hx), rfl⟩
    | cons c as => exact absurd (hmore x c (by simp [hx])) (hs c rfl)

/-- What stands between fixed texts is read without looking further, if the second of them ends
it. -/
theorem enclosed (h : Readable more f) (hclose : ¬more close) (before after : List Char) :
    Readable more' fun x => before ++ f x ++ close :: after := by
  intro x y r s _ _ heq
  have heq : before ++ (f x ++ close :: (after ++ r)) =
      before ++ (f y ++ close :: (after ++ s)) := by
    simpa using heq
  obtain ⟨hxy, hrest⟩ := h (ceases_cons.mpr hclose) (ceases_cons.mpr hclose)
    (List.append_cancel_left heq)
  obtain ⟨-, hrest⟩ := List.cons.inj hrest
  exact ⟨hxy, List.append_cancel_left hrest⟩

/-- Any number of values, each begun by something else than the closing character, are read up to
it. -/
theorem many (h : Readable more f) (hclose : ¬more close)
    (hopens : ∀ x, ∃ c cs, f x = c :: cs ∧ c ≠ close ∧ ¬more c) :
    Readable more' fun l : List α => l.flatMap f ++ [close] := by
  have hrest : ∀ (l : List α) t, Ceases more (l.flatMap f ++ close :: t) := by
    intro l t
    cases l with
    | nil => exact ceases_cons.mpr hclose
    | cons x l =>
      obtain ⟨c, cs, hx, -, hc⟩ := hopens x
      simpa [hx] using ceases_cons.mpr hc
  intro l l' r s _ _ heq
  simp only [List.append_assoc, List.singleton_append] at heq
  induction l generalizing l' with
  | nil =>
    cases l' with
    | nil => simpa using heq
    | cons y l' =>
      obtain ⟨c, cs, hy, hne, -⟩ := hopens y
      simp only [List.flatMap_nil, List.flatMap_cons, hy, List.nil_append, List.cons_append] at heq
      exact absurd (List.cons.inj heq).1.symm hne
  | cons x l ih =>
    cases l' with
    | nil =>
      obtain ⟨c, cs, hx, hne, -⟩ := hopens x
      simp only [List.flatMap_nil, List.flatMap_cons, hx, List.nil_append, List.cons_append] at heq
      exact absurd (List.cons.inj heq).1 hne
    | cons y l' =>
      simp only [List.flatMap_cons, List.append_assoc] at heq
      obtain ⟨rfl, hbehind⟩ := h (hrest l r) (hrest l' s) heq
      obtain ⟨rfl, rfl⟩ := ih hbehind
      exact ⟨rfl, rfl⟩

end Readable

/-! ### Numerals -/

/-- The characters that whole numbers are written in. -/
def InNumeral (c : Char) : Prop := c.isDigit ∨ c = '-'

instance : DecidablePred InNumeral := fun c => inferInstanceAs (Decidable (c.isDigit ∨ c = '-'))

theorem isDigit_of_mem_repr {n : Nat} {c : Char} (h : c ∈ n.repr.toList) : c.isDigit := by
  rw [Nat.repr_eq_ofList_toDigits, String.toList_ofList] at h
  exact Nat.isDigit_of_mem_toDigits (by decide) (by decide) h

theorem inNumeral_of_mem_repr {n : Int} {c : Char} (h : c ∈ n.repr.toList) : InNumeral c := by
  rw [Int.repr_eq_if] at h
  split at h
  · exact .inl (isDigit_of_mem_repr h)
  · obtain rfl | h : c = '-' ∨ c ∈ (-n).toNat.repr.toList := by simpa using h
    · exact .inr rfl
    · exact .inl (isDigit_of_mem_repr h)

theorem toList_repr_ne_nil (n : Int) : n.repr.toList ≠ [] := by
  have hpos (k : Nat) : k.repr.toList ≠ [] := by
    rw [Nat.repr_eq_ofList_toDigits, String.toList_ofList]
    exact List.ne_nil_of_length_pos Nat.length_toDigits_pos
  rw [Int.repr_eq_if]
  split
  · exact hpos _
  · simp

/-- The digits of a code are those of sixteen. -/
theorem exists_digit_of_mem {n : Nat} {c : Char} (h : c ∈ Nat.toDigits 16 n) :
    ∃ k : Fin 16, c = k.val.digitChar := by
  induction n using Nat.strong_induction_on with
  | _ n ih =>
    rw [Nat.toDigits_eq_if (by decide)] at h
    split at h
    next hn => exact ⟨⟨n, hn⟩, List.mem_singleton.mp h⟩
    next hn =>
      rcases List.mem_append.mp h with h | h
      · exact ih (n / 16) (by omega) h
      · exact ⟨⟨n % 16, by omega⟩, List.mem_singleton.mp h⟩

theorem digitChar_inj {m n : Nat} (hm : m < 16) (hn : n < 16) (h : m.digitChar = n.digitChar) :
    m = n := by
  have hdigits : ∀ j k : Fin 16, j.val.digitChar = k.val.digitChar → j = k := by decide
  exact Fin.mk.inj (hdigits ⟨m, hm⟩ ⟨n, hn⟩ h)

theorem toDigits_injective : Function.Injective (Nat.toDigits 16) := by
  intro m n h
  induction m using Nat.strong_induction_on generalizing n with
  | _ m ih =>
    rw [Nat.toDigits_eq_if (by decide), Nat.toDigits_eq_if (n := n) (by decide)] at h
    have hpos (k : Nat) : (Nat.toDigits 16 k).length ≠ 0 := Nat.ne_of_gt Nat.length_toDigits_pos
    split at h <;> split at h
    next hm hn => exact digitChar_inj hm hn (by simpa using h)
    next hm hn =>
      have hlength := congrArg List.length h
      simp [hpos] at hlength
    next hm hn =>
      have hlength := congrArg List.length h
      simp [hpos] at hlength
    next hm hn =>
      obtain ⟨hinit, hlast⟩ := List.append_inj' h rfl
      have hdiv := ih (m / 16) (by omega) hinit
      have hmod : m % 16 = n % 16 := digitChar_inj (by omega) (by omega) (by simpa using hlast)
      omega

/-- A code is read up to the brace that closes it. -/
theorem readable_code : Readable (· ≠ '\x7d') fun c : Char => Nat.toDigits 16 c.toNat := by
  refine .of_forall_mem (toDigits_injective.comp fun _ _ => Char.toNat_inj.mp) fun c d hd => ?_
  obtain ⟨k, rfl⟩ := exists_digit_of_mem hd
  have hdigits : ∀ k : Fin 16, k.val.digitChar ≠ '\x7d' := by decide
  exact hdigits k

/-! ### Literals -/

/-- What a character stands for behind a backslash. -/
def meant : Char → Char
  | 'n' => '\n'
  | 'r' => '\r'
  | 't' => '\t'
  | '0' => '\x00'
  | c => c

/-- A character of a literal stands for itself, or a backslash has another one stand for it, or its
code does. -/
inductive Spells (quote : Char) : Char → List Char → Prop
  | plain {c : Char} (hquote : c ≠ quote) (hslash : c ≠ '\\') : Spells quote c [c]
  | short {c : Char} (hc : c ≠ 'u') : Spells quote (meant c) ['\\', c]
  | code (c : Char) :
    Spells quote c ('\\' :: 'u' :: '\x7b' :: (Nat.toDigits 16 c.toNat ++ ['\x7d']))

theorem spells_escape (c : Char) : Spells '"' c (Text.escape '"' c) := by
  unfold Text.escape
  split
  next h =>
    rcases h with rfl | rfl
    · exact .short (c := '"') (by decide)
    · exact .short (c := '\\') (by decide)
  next h =>
    obtain ⟨hquote, hslash⟩ := not_or.mp h
    split_ifs with hn hr ht hz
    · exact hn ▸ .short (c := 'n') (by decide)
    · exact hr ▸ .short (c := 'r') (by decide)
    · exact ht ▸ .short (c := 't') (by decide)
    · exact hz ▸ .short (c := '0') (by decide)
    · exact .plain hquote hslash
    · exact .code c

theorem Spells.unique {quote c d : Char} (hc : Spells quote c xs) (hd : Spells quote d ys)
    (h : xs ++ r = ys ++ s) : c = d ∧ r = s := by
  cases hc with
  | plain hquote hslash =>
    cases hd with
    | plain => simpa using h
    | short => exact absurd (List.cons.inj h).1 hslash
    | code => exact absurd (List.cons.inj h).1 hslash
  | short hc =>
    cases hd with
    | plain _ hslash => exact absurd (List.cons.inj h).1.symm hslash
    | short =>
      obtain ⟨rfl, rfl⟩ : _ ∧ r = s := by simpa using h
      exact ⟨rfl, rfl⟩
    | code => exact absurd (List.cons.inj (List.cons.inj h).2).1 hc
  | code =>
    cases hd with
    | plain _ hslash => exact absurd (List.cons.inj h).1.symm hslash
    | short hd => exact absurd (List.cons.inj (List.cons.inj h).2).1.symm hd
    | code =>
      have hcode : Readable (fun _ => False) fun c : Char =>
          ['\\', 'u', '\x7b'] ++ Nat.toDigits 16 c.toNat ++ '\x7d' :: [] :=
        readable_code.enclosed (by simp) ['\\', 'u', '\x7b'] []
      exact hcode (by simp [Ceases]) (by simp [Ceases]) (by simpa using h)

theorem Spells.opens {quote c : Char} (h : Spells quote c xs) (hquote : quote ≠ '\\') :
    ∃ d ds, xs = d :: ds ∧ d ≠ quote := by
  cases h with
  | plain hc => exact ⟨c, [], rfl, hc⟩
  | short => exact ⟨_, _, rfl, hquote.symm⟩
  | code => exact ⟨_, _, rfl, hquote.symm⟩

theorem readable_escape : Readable more (Text.escape '"') := by
  intro c d r s _ _ h
  exact (spells_escape c).unique (spells_escape d) h

theorem readable_quotedString : Readable more fun s : String => (Text.quotedString s).toList := by
  have hopens (c : Char) : ∃ d ds, Text.escape '"' c = d :: ds ∧ d ≠ '"' ∧ ¬False := by
    obtain ⟨d, ds, hc, hd⟩ := (spells_escape c).opens (by decide)
    exact ⟨d, ds, hc, hd, not_false⟩
  have hescape : Readable (fun _ => False) (Text.escape '"') := readable_escape
  have hmany : Readable more fun cs : List Char => cs.flatMap (Text.escape '"') ++ ['"'] :=
    hescape.many not_false hopens
  intro s t r r' hr hr' h
  obtain ⟨hst, hrest⟩ := hmany hr hr' (by simpa [Text.quotedString, Text.literal] using h)
  exact ⟨String.toList_inj.mp hst, hrest⟩

/-! ### Values -/

/-- The texts of values are read up to where a numeral ends, and none begins as if a list ended
there. -/
structure Unambiguous (α : Type) [Shown α] : Prop where
  readable : Readable InNumeral fun x : α => (text x).toList
  opens (x : α) : ∃ c cs, (text x).toList = c :: cs ∧ c ≠ ']'

theorem unambiguous_int : Unambiguous Int64 where
  readable := by
    refine .of_forall_mem (fun m n h => ?_) fun n c hc => inNumeral_of_mem_repr hc
    exact Int64.toInt_inj.mp (Int.repr_inj.mp (String.toList_inj.mp h))
  opens n := by
    cases hn : (text n).toList with
    | nil => exact absurd hn (toList_repr_ne_nil n.toInt)
    | cons c cs =>
      have hc : InNumeral c := inNumeral_of_mem_repr (n := n.toInt) (hn ▸ List.mem_cons_self)
      refine ⟨c, cs, rfl, ?_⟩
      rintro rfl
      exact absurd hc (by decide)

theorem unambiguous_string : Unambiguous String where
  readable := readable_quotedString
  opens s := by
    have hs : (text s).toList = '"' :: (s.toList.flatMap (Text.escape '"') ++ ['"']) :=
      String.toList_ofList
    exact ⟨_, _, hs, by decide⟩

variable [Shown α]

theorem toList_text_nil : (text ([] : List α)).toList = ['[', ']'] := by
  simp [text]

/-- Every item of a list but the first stands behind a comma. -/
theorem toList_text_cons (x : α) (l : List α) : (text (x :: l)).toList =
    '[' :: ((text x).toList ++ (l.flatMap (fun y => [',', ' '] ++ (text y).toList) ++ [']'])) := by
  have hitems : ([',', ' '] : List Char).intercalate ((x :: l).map fun y => (text y).toList) =
      (text x).toList ++ l.flatMap fun y => [',', ' '] ++ (text y).toList := by
    induction l generalizing x with
    | nil => simp
    | cons y l ih =>
      have hrest := ih y
      simp only [List.map_cons, List.intercalate_cons_cons, List.flatMap_cons] at hrest ⊢
      simp only [hrest, List.append_assoc]
  have htext : (text (x :: l)).toList =
      '[' :: (([',', ' '] : List Char).intercalate ((x :: l).map fun y => (text y).toList) ++
        [']']) := by
    simp [text, String.toList_intercalate, Function.comp_def]
  rw [htext, hitems, List.append_assoc]

/-- A list that ends at once is not read as one with an item. -/
theorem Unambiguous.nil_ne_cons (h : Unambiguous α) (x : α) (l : List α) :
    (text ([] : List α)).toList ++ r ≠ (text (x :: l)).toList ++ s := by
  obtain ⟨c, cs, hx, hne⟩ := h.opens x
  rw [toList_text_nil, toList_text_cons, hx]
  intro heq
  have hsecond := (List.cons.inj (List.cons.inj heq).2).1
  exact hne hsecond.symm

theorem Unambiguous.list (h : Unambiguous α) : Unambiguous (List α) where
  readable := by
    have hitem : Readable InNumeral fun y : α => [',', ' '] ++ (text y).toList := by
      intro x y r s hr hs heq
      exact h.readable hr hs (by simpa using heq)
    have hitems : Readable InNumeral
        fun l : List α => l.flatMap (fun y => [',', ' '] ++ (text y).toList) ++ [']'] :=
      hitem.many (by decide) fun y => ⟨',', _, rfl, by decide, by decide⟩
    have hends (l : List α) (t : List Char) :
        Ceases InNumeral (l.flatMap (fun y => [',', ' '] ++ (text y).toList) ++ [']'] ++ t) := by
      cases l <;> simp [ceases_cons, InNumeral]
    intro l l' r s hr hs heq
    cases l with
    | nil =>
      cases l' with
      | nil => exact ⟨rfl, List.append_cancel_left heq⟩
      | cons y l' => exact absurd heq (h.nil_ne_cons y l')
    | cons x l =>
      cases l' with
      | nil => exact absurd heq.symm (h.nil_ne_cons x l)
      | cons y l' =>
        simp only [toList_text_cons, List.cons_append, List.append_assoc] at heq
        obtain ⟨rfl, hbehind⟩ := h.readable (hends l r) (hends l' s) (by simpa using heq)
        obtain ⟨rfl, rfl⟩ := hitems hr hs hbehind
        exact ⟨rfl, rfl⟩
  opens l := by
    cases l with
    | nil => exact ⟨'[', [']'], toList_text_nil, by decide⟩
    | cons x l => exact ⟨'[', _, toList_text_cons x l, by decide⟩

end Marble
