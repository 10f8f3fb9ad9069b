import Marble.Bench.Run
import Mathlib.Logic.Relation

/-! Laws of runs and attempts, and the relations between benches that they keep to. -/
namespace Marble

variable {α σ ρ τ : Type} {R : Bench α σ → Bench α σ → Prop} {b b' : Bench α σ}

namespace Run

variable {m : Run α σ ρ} {f : ρ → Run α σ τ}

theorem bind_done {r : ρ} (h : m b = (.done r, b')) : (m >>= f) b = f r b' := by
  simp only [bind, h]

/-- A sequence that gets through its first part goes on from there; else it ends with that part. -/
theorem bind_cases (m : Run α σ ρ) (f : ρ → Run α σ τ) (b : Bench α σ) :
    (∃ r b', m b = (.done r, b') ∧ (m >>= f) b = f r b') ∨
      ((m >>= f) b).2 = (m b).2 ∧ ∀ r, ((m >>= f) b).1 ≠ .done r := by
  rcases hm : m b with ⟨r | message | _, b'⟩
  · exact Or.inl ⟨r, b', rfl, bind_done hm⟩
  · right
    simp [bind, hm]
  · right
    simp [bind, hm]

theorem bind_eq_done {t : τ} (h : (m >>= f) b = (.done t, b')) :
    ∃ r b₁, m b = (.done r, b₁) ∧ f r b₁ = (.done t, b') := by
  rcases bind_cases m f b with ⟨r, b₁, hm, he⟩ | ⟨_, hne⟩
  · exact ⟨r, b₁, hm, he ▸ h⟩
  · exact (hne t (by rw [h])).elim

/-- A sequence whose first part breaks off ends with it. -/
theorem bind_of_ne_done {m : Run α σ ρ} {f : ρ → Run α σ ρ} (h : ∀ r, (m b).1 ≠ .done r) :
    (m >>= f) b = m b := by
  rcases hm : m b with ⟨r | message | _, b'⟩
  · exact (h r (by rw [hm])).elim
  · simp only [bind, hm]
  · simp only [bind, hm]

theorem bind_assoc {υ : Type} (m : Run α σ ρ) (f : ρ → Run α σ τ) (g : τ → Run α σ υ) :
    m >>= f >>= g = m >>= fun r => f r >>= g := by
  funext b
  rcases hm : m b with ⟨r | message | _, b'⟩ <;> simp only [bind, hm]

@[simp] theorem pure_apply (r : ρ) : (pure r : Run α σ ρ) b = (.done r, b) := rfl

theorem pure_eq_done {r t : ρ} (h : (pure r : Run α σ ρ) b = (.done t, b')) : r = t ∧ b = b' :=
  ⟨Outcome.done.inj (congrArg Prod.fst h), congrArg Prod.snd h⟩

@[simp] theorem read_bind (g : Bench α σ → ρ) : (read g >>= f) b = f (g b) b := rfl

@[simp] theorem update_bind (g : Bench α σ → Bench α σ) (f : Unit → Run α σ τ) :
    (update g >>= f) b = f () (g b) := rfl

@[simp] theorem change_bind (g : Bench α σ → ρ × Bench α σ) :
    (change g >>= f) b = f (g b).1 (g b).2 := rfl

@[simp] theorem note_bind (e : Entry α) (f : Unit → Run α σ τ) :
    (note e >>= f) b = f () (b.note e) := rfl

theorem bind_pure_snd (m : Run α σ ρ) (g : ρ → τ) (b : Bench α σ) :
    ((m >>= fun r => pure (g r)) b).2 = (m b).2 := by
  rcases bind_cases m (fun r => pure (g r)) b with ⟨r, b', hm, he⟩ | ⟨he, _⟩
  · rw [he, hm]
    rfl
  · exact he

theorem onPanic_eq_done {after : Bench α σ → Bench α σ} {r : ρ}
    (h : m.onPanic after b = (.done r, b')) : m b = (.done r, b') := by
  rcases hm : m b with ⟨r' | message | _, b₁⟩ <;> simp [onPanic, hm] at h
  obtain ⟨rfl, rfl⟩ := h
  rfl

theorem each_singleton (g : ρ → Run α σ Unit) (x : ρ) : each g [x] = g x := by
  funext b
  change (g x >>= fun _ => pure ()) b = g x b
  rcases hx : g x b with ⟨_ | message | _, b'⟩ <;> simp only [bind, hx, pure_apply]

theorem each_map {υ : Type} (f : υ → ρ) (g : ρ → Run α σ Unit) (xs : List υ) :
    each g (xs.map f) = each (fun x => g (f x)) xs := by
  induction xs with
  | nil => rfl
  | cons x rest ih => simp only [List.map_cons, each, ih]

/-- Changes of a bench in turn are one change. -/
theorem each_update (f : ρ → Bench α σ → Bench α σ) (xs : List ρ) :
    each (fun x => update (f x)) xs = update fun b => xs.foldl (fun b x => f x b) b := by
  induction xs with
  | nil => rfl
  | cons x xs ih =>
    rw [each, ih]
    rfl

/-- Runs that all come to their end on a bench with a property, and keep it, do so in turn. -/
theorem each_done_of {P : Bench α σ → Prop} {g : ρ → Run α σ Unit} {xs : List ρ}
    (h : ∀ x ∈ xs, ∀ b, P b → ∃ b', g x b = (.done (), b') ∧ P b') (hb : P b) :
    ∃ b', each g xs b = (.done (), b') ∧ P b' := by
  induction xs generalizing b with
  | nil => exact ⟨b, rfl, hb⟩
  | cons x rest ih =>
    obtain ⟨b₁, hx, h₁⟩ := h x (by simp) b hb
    obtain ⟨b₂, hrest, h₂⟩ := ih (fun y hy => h y (by simp [hy])) h₁
    refine ⟨b₂, ?_, h₂⟩
    rw [each, bind_done hx]
    exact hrest

theorem each_done {g : ρ → Run α σ Unit} {xs : List ρ}
    (h : ∀ x ∈ xs, ∀ b, ∃ b', g x b = (.done (), b')) (b : Bench α σ) :
    ∃ b', each g xs b = (.done (), b') := by
  have hdone : ∀ x ∈ xs, ∀ b, True → ∃ b', g x b = (.done (), b') ∧ True := by
    simpa using h
  obtain ⟨b', hrun, -⟩ := each_done_of (P := fun _ => True) hdone trivial
  exact ⟨b', hrun⟩

/-- However a run ends, the bench it leaves is related to the one it found. -/
def Keeps (R : Bench α σ → Bench α σ → Prop) (m : Run α σ ρ) : Prop := ∀ b, R b (m b).2

theorem Keeps.of_eq {o : Outcome ρ} (hm : Keeps R m) (h : m b = (o, b')) : R b b' := by
  have hb := hm b
  rwa [h] at hb

theorem keeps_update {g : Bench α σ → Bench α σ} (h : ∀ b, R b (g b)) : Keeps R (update g) := h

theorem keeps_change {g : Bench α σ → ρ × Bench α σ} (h : ∀ b, R b (g b).2) :
    Keeps R (change g) := h

theorem keeps_note {e : Entry α} (h : ∀ b, R b (b.note e)) : Keeps R (note e) := h

theorem keeps_ite {p : Prop} [Decidable p] {m m' : Run α σ ρ} (h : p → Keeps R m)
    (h' : ¬ p → Keeps R m') : Keeps R (if p then m else m') := by
  split
  next hp => exact h hp
  next hp => exact h' hp

/-- What comes second may know from which bench the first part came to its end. -/
theorem keeps_bind_done (hm : Keeps R m) (hf : ∀ b r b', m b = (.done r, b') → R b (f r b').2) :
    Keeps R (m >>= f) := by
  intro b
  rcases bind_cases m f b with ⟨r, b', hb, he⟩ | ⟨he, _⟩
  · rw [he]
    exact hf b r b' hb
  · rw [he]
    exact hm b

/-- What a sequence does since some earlier bench. -/
theorem leads_bind {b₀ : Bench α σ} (hm : R b₀ (m b).2) (hf : ∀ r b', R b₀ b' → R b₀ (f r b').2) :
    R b₀ ((m >>= f) b).2 := by
  rcases bind_cases m f b with ⟨r, b', hb, he⟩ | ⟨he, _⟩
  · rw [hb] at hm
    rw [he]
    exact hf r b' hm
  · rwa [he]

section Refl

variable [Std.Refl R]

@[simp] theorem keeps_pure (r : ρ) : Keeps R (pure r : Run α σ ρ) := fun b => refl_of R b

@[simp] theorem keeps_read (g : Bench α σ → ρ) : Keeps R (read g) := fun b => refl_of R b

@[simp] theorem keeps_panic (message : String) : Keeps R (panic message : Run α σ ρ) :=
  fun b => refl_of R b

@[simp] theorem keeps_exhaust : Keeps R (exhaust : Run α σ ρ) := fun b => refl_of R b

end Refl

section Trans

variable [IsTrans _ R]

@[simp] theorem keeps_bind (hm : Keeps R m) (hf : ∀ r, Keeps R (f r)) : Keeps R (m >>= f) := by
  intro b
  rcases bind_cases m f b with ⟨r, b', hb, he⟩ | ⟨he, _⟩
  · have h := hm b
    rw [hb] at h
    rw [he]
    exact trans_of R h (hf r b')
  · rw [he]
    exact hm b

theorem keeps_ensure {after : Bench α σ → Bench α σ} (hm : Keeps R m)
    (h : ∀ b, R b (after b)) : Keeps R (ensure m after) := fun b => trans_of R (hm b) (h _)

theorem keeps_onPanic {after : Bench α σ → Bench α σ} (hm : Keeps R m)
    (h : ∀ b, R b (after b)) : Keeps R (onPanic m after) := by
  intro b
  have hb := hm b
  rcases hr : m b with ⟨r | message | _, b'⟩ <;> simp only [onPanic, hr] at hb ⊢
  · exact hb
  · exact trans_of R hb (h b')
  · exact hb

@[simp] theorem keeps_each [Std.Refl R] {g : ρ → Run α σ Unit} {xs : List ρ}
    (h : ∀ x ∈ xs, Keeps R (g x)) : Keeps R (each g xs) := by
  induction xs with
  | nil => exact keeps_pure ()
  | cons x xs ih =>
    exact keeps_bind (h x (by simp)) fun _ => ih fun y hy => h y (by simp [hy])

end Trans

end Run

namespace Attempt

variable {m : Attempt α σ ρ} {f : ρ → Attempt α σ τ}

theorem bind_ok {r : ρ} (h : m b = (.done (.ok r), b')) : (m >>= f) b = f r b' :=
  Run.bind_done (m := m.result) h

theorem bind_panicked {message : String} (h : m b = (.panicked message, b')) :
    (m >>= f) b = (.panicked message, b') := by
  simp [bind, next, h]

theorem bind_error {e : Error} (h : m b = (.done (.error e), b')) :
    (m >>= f) b = (.done (.error e), b') := by
  simp [bind, next, h]

/-- An attempt in two parts that comes to an end has got through the first, or failed there. -/
theorem bind_eq_done {t : Except Error τ} (h : (m >>= f) b = (.done t, b')) :
    (∃ r b₁, m b = (.done (.ok r), b₁) ∧ f r b₁ = (.done t, b')) ∨
      ∃ e, m b = (.done (.error e), b') ∧ t = .error e := by
  obtain ⟨e | r, b₁, hm, h⟩ := Run.bind_eq_done (m := m.result) h
  · obtain ⟨rfl, rfl⟩ := Run.pure_eq_done h
    exact Or.inr ⟨e, hm, rfl⟩
  · exact Or.inl ⟨r, b₁, hm, h⟩

theorem lift_done {m : Run α σ ρ} {r : ρ} (h : m b = (.done r, b')) :
    lift m b = (.done (.ok r), b') := Run.bind_done h

theorem lift_panicked {m : Run α σ ρ} {message : String} (h : m b = (.panicked message, b')) :
    lift m b = (.panicked message, b') := by
  simp [lift, bind, h]

theorem lift_eq_done {m : Run α σ ρ} {t : Except Error ρ} (h : lift m b = (.done t, b')) :
    ∃ r, m b = (.done r, b') ∧ t = .ok r := by
  obtain ⟨r, b₁, hm, h⟩ := Run.bind_eq_done (m := m) h
  obtain ⟨rfl, rfl⟩ := Run.pure_eq_done h
  exact ⟨r, hm, rfl⟩

theorem lift_bind_eq_done {m : Run α σ ρ} {t : Except Error τ}
    (h : (lift m >>= f) b = (.done t, b')) :
    ∃ r b₁, m b = (.done r, b₁) ∧ f r b₁ = (.done t, b') := by
  rcases bind_eq_done h with ⟨r, b₁, hm, hf⟩ | ⟨e, hm, _⟩
  · obtain ⟨r', hm, hr⟩ := lift_eq_done hm
    obtain rfl := Except.ok.inj hr
    exact ⟨r, b₁, hm, hf⟩
  · obtain ⟨r', _, hr⟩ := lift_eq_done hm
    cases hr

/-- A computation that is done goes on from there; else all ends with it. -/
theorem lift_bind_cases (m : Run α σ ρ) (f : ρ → Attempt α σ τ) (b : Bench α σ) :
    (∃ r b', m b = (.done r, b') ∧ (lift m >>= f) b = f r b') ∨
      ((lift m >>= f) b).2 = (m b).2 ∧ ∀ r, (m b).1 ≠ .done r := by
  rcases hm : m b with ⟨r | message | _, b'⟩
  · exact Or.inl ⟨r, b', rfl, bind_ok (lift_done hm)⟩
  · right
    simp [bind, next, lift_panicked hm]
  · right
    have hlift : lift m b = (.exhausted, b') := by simp [lift, bind, hm]
    simp [bind, next, hlift]

/-- What comes after a computation that breaks off is never reached. -/
theorem lift_bind_of_ne_done {m : Run α σ ρ} (h : ∀ r, (m b).1 ≠ .done r)
    (f : ρ → Attempt α σ τ) : ((lift m >>= f) b).2 = (m b).2 := by
  rcases lift_bind_cases m f b with ⟨r, b', hm, -⟩ | ⟨hsnd, -⟩
  · exact (h r (congrArg Prod.fst hm)).elim
  · exact hsnd

theorem bind_pure_snd (m : Attempt α σ ρ) (g : ρ → τ) (b : Bench α σ) :
    ((m >>= fun r => pure (g r)) b).2 = (m b).2 := by
  rcases hm : m b with ⟨(e | r) | message | _, b'⟩
  · simp [bind, next, hm]
  · rw [bind_ok hm]
    rfl
  · simp [bind, next, hm]
  · simp [bind, next, hm]

theorem lift_check_snd (m : Run α σ ρ) (g : ρ → Bench α σ → Except Error τ) (b : Bench α σ) :
    ((lift m >>= fun r => check (g r)) b).2 = (m b).2 := by
  rcases lift_bind_cases m (fun r => check (g r)) b with ⟨r, b', hm, he⟩ | ⟨he, -⟩
  · rw [he, hm]
    rfl
  · exact he

@[simp] theorem pure_apply (r : ρ) : (pure r : Attempt α σ ρ) b = (.done (.ok r), b) := rfl

@[simp] theorem read_bind (g : Bench α σ → ρ) : (read g >>= f) b = f (g b) b := rfl

@[simp] theorem update_bind (g : Bench α σ → Bench α σ) (f : Unit → Attempt α σ τ) :
    (update g >>= f) b = f () (g b) := rfl

@[simp] theorem change_bind (g : Bench α σ → ρ × Bench α σ) :
    (change g >>= f) b = f (g b).1 (g b).2 := rfl

@[simp] theorem note_bind (e : Entry α) (f : Unit → Attempt α σ τ) :
    (note e >>= f) b = f () (b.note e) := rfl

/-- However an attempt ends, the bench it leaves is related to the one it found. -/
def Keeps (R : Bench α σ → Bench α σ → Prop) (m : Attempt α σ ρ) : Prop :=
  Run.Keeps R m.result

theorem keeps_update {g : Bench α σ → Bench α σ} (h : ∀ b, R b (g b)) : Keeps R (update g) := h

theorem keeps_change {g : Bench α σ → ρ × Bench α σ} (h : ∀ b, R b (g b).2) :
    Keeps R (change g) := h

theorem keeps_step {g : Bench α σ → Except Error ρ × Bench α σ} (h : ∀ b, R b (g b).2) :
    Keeps R (step g) := h

theorem keeps_note {e : Entry α} (h : ∀ b, R b (b.note e)) : Keeps R (note e) := h

theorem lift_snd (m : Run α σ ρ) (b : Bench α σ) : (lift m b).2 = (m b).2 :=
  Run.bind_pure_snd m Except.ok b

theorem keeps_lift {m : Run α σ ρ} (h : Run.Keeps R m) : Keeps R (lift m) := by
  intro b
  change R b (lift m b).2
  rw [lift_snd]
  exact h b

theorem leads_lift_bind {m : Run α σ ρ} {b₀ : Bench α σ} (hm : R b₀ (m b).2)
    (hf : ∀ r b', R b₀ b' → R b₀ (f r b').2) : R b₀ ((lift m >>= f) b).2 := by
  rcases lift_bind_cases m f b with ⟨r, b', hb, he⟩ | ⟨he, _⟩
  · rw [hb] at hm
    rw [he]
    exact hf r b' hm
  · rwa [he]

theorem keeps_lift_bind {m : Run α σ ρ} (hm : Run.Keeps R m)
    (hf : ∀ b r b', m b = (.done r, b') → R b (f r b').2) : Keeps R (lift m >>= f) := by
  intro b
  change R b ((lift m >>= f) b).2
  rcases lift_bind_cases m f b with ⟨r, b', hb, he⟩ | ⟨he, _⟩
  · rw [he]
    exact hf b r b' hb
  · rw [he]
    exact hm b

section Refl

variable [Std.Refl R]

@[simp] theorem keeps_pure (r : ρ) : Keeps R (pure r : Attempt α σ ρ) := fun b => refl_of R b

@[simp] theorem keeps_fail (e : Error) : Keeps R (fail e : Attempt α σ ρ) := fun b => refl_of R b

@[simp] theorem keeps_read (g : Bench α σ → ρ) : Keeps R (read g) := fun b => refl_of R b

@[simp] theorem keeps_check (g : Bench α σ → Except Error ρ) : Keeps R (check g) :=
  fun b => refl_of R b

@[simp] theorem keeps_bind [IsTrans _ R] (hm : Keeps R m) (hf : ∀ r, Keeps R (f r)) :
    Keeps R (m >>= f) := by
  apply Run.keeps_bind hm
  rintro (e | r)
  · exact Run.keeps_pure _
  · exact hf r

end Refl

end Attempt

end Marble
