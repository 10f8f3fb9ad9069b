import Marble.Bench.Scopes
import Marble.Proofs.Run

/-! The end of a scope: every assertion comes to an outcome, and the first failure is the answer. -/
namespace Marble

variable {α σ : Type}

/-- The failures among outcomes. -/
def failures (outcomes : List (Except Error Unit)) : List Error :=
  outcomes.filterMap fun
    | .ok _ => none
    | .error e => some e

/-- What a scope with these outcomes ends with. -/
def verdict (outcomes : List (Except Error Unit)) : Except Error Unit :=
  match failures outcomes with
  | [] => .ok ()
  | e :: _ => .error e

@[simp] theorem verdict_singleton (outcome : Except Error Unit) : verdict [outcome] = outcome := by
  cases outcome <;> rfl

theorem Bench.get?_modifyScope (b : Bench α σ) (s : ScopeRef) (f : Scope α σ → Scope α σ) :
    (b.modifyScope s f).scopes.get? s = (b.scopes.get? s).map f := by
  simp [modifyScope, Table.get?_modify]

namespace Engine

/-- Whatever becomes of a callback, what it does to the bench is done. -/
theorem fire_snd (E : Engine α σ) (f : σ) (b : Bench α σ) :
    (E.fire f b).2 = (E.call f b).2 := by
  rw [fire, Run.bind_pure_snd]
  rfl

/-- Reports an assertion that has failed. -/
def reportFailure (s : ScopeRef) (index : Nat) : Except Error Unit → Run α σ Unit
  | .ok _ => return ()
  | .error e => Run.note (.report (.assertionFailed s.scopeId index e))

theorem reportFailure_done (s : ScopeRef) (index : Nat) (outcome : Except Error Unit)
    (b : Bench α σ) : ∃ b', reportFailure s index outcome b = (.done (), b') := by
  cases outcome <;> exact ⟨_, rfl⟩

/-- A report is at most one more entry in the log. -/
theorem keeps_reportFailure {R : Bench α σ → Bench α σ → Prop} [Std.Refl R]
    (hnote : ∀ (b : Bench α σ) (e : Entry α), R b (b.note e)) (s : ScopeRef) (index : Nat)
    (outcome : Except Error Unit) : Run.Keeps R (reportFailure s index outcome) := by
  cases outcome with
  | ok u => exact Run.keeps_pure ()
  | error e => exact Run.keeps_note fun b => hnote b _

theorem giveUpIfUnbalanced_done (s : ScopeRef) (outcome : Except Error Unit) (b : Bench α σ) :
    ∃ b', giveUpIfUnbalanced s outcome b = (.done (), b') := by
  unfold giveUpIfUnbalanced
  split <;> exact ⟨_, rfl⟩

variable [Shown α] (E : Engine α σ)

/-- To check an assertion is to call client code, or to read and to report. -/
theorem keeps_verify {R : Bench α σ → Bench α σ → Prop} [IsPreorder (Bench α σ) R] {s : ScopeRef}
    (hreport : ∀ (b : Bench α σ) diagram m,
      R b (b.note (.report (.mismatched s.scopeId diagram m))))
    (grid : TimeGrid) {a : Assertion α σ} (hcall : ∀ f, a = .check f → Attempt.Keeps R (E.call f)) :
    Attempt.Keeps R (E.verify s grid a) := by
  cases a with
  | check f => exact hcall f rfl
  | events r diagram expected compare =>
    refine Attempt.keeps_bind (Attempt.keeps_read _) fun actual => ?_
    dsimp only
    split
    · refine Attempt.keeps_bind (Attempt.keeps_lift ?_) fun _ => Attempt.keeps_check _
      exact Run.keeps_each fun m _ => Run.keeps_note fun b => hreport b diagram m
    · exact Attempt.keeps_bind (Attempt.keeps_pure ()) fun _ => Attempt.keeps_check _
  | effects p expected => exact Attempt.keeps_check _

/-- What a recorder took in is compared, whatever there is to report about it. -/
theorem verify_events_done {s : ScopeRef} (grid : TimeGrid) (r : RecorderRef) (text : String)
    (expected : List (Timed (Signal α))) (compare : Compare α) (b : Bench α σ) :
    ∃ b', (E.verify s grid (.events r text expected compare)).result b =
      (.done (checkEvents compare grid (b.messages r) expected), b') := by
  obtain ⟨b₁, hreport⟩ : ∃ b', (reportMismatches s text
      (mismatches compare grid (b.messages r) expected) : Run α σ Unit) b = (.done (), b') :=
    Run.each_done (fun _ _ _ => ⟨_, rfl⟩) b
  change ∃ b', (Attempt.read (·.messages r) >>= _) b = _
  rw [Attempt.read_bind]
  dsimp only
  split
  · rw [Attempt.bind_ok (Attempt.lift_done hreport)]
    exact ⟨b₁, rfl⟩
  · exact ⟨b, rfl⟩

/-- The outcome of each assertion in turn, counted from `index`. -/
def outcomes (s : ScopeRef) (grid : TimeGrid) (index : Nat) :
    List (Assertion α σ) → Run α σ (List (Except Error Unit))
  | [] => return []
  | a :: rest => do
    let outcome ← (E.verify s grid a).result
    reportFailure s index outcome
    let later ← outcomes s grid (index + 1) rest
    return outcome :: later

theorem keeps_outcomes {R : Bench α σ → Bench α σ → Prop} [IsPreorder (Bench α σ) R] {s : ScopeRef}
    (hnote : ∀ (b : Bench α σ) (e : Entry α), R b (b.note e)) (grid : TimeGrid) (index : Nat)
    {pending : List (Assertion α σ)}
    (hcall : ∀ f, .check f ∈ pending → Attempt.Keeps R (E.call f)) :
    Run.Keeps R (E.outcomes s grid index pending) := by
  induction pending generalizing index with
  | nil => exact Run.keeps_pure _
  | cons a rest ih =>
    refine Run.keeps_bind ?_ fun outcome => ?_
    · exact keeps_verify E (fun b _ _ => hnote b _) grid fun f hf => hcall f (by simp [hf])
    · refine Run.keeps_bind (keeps_reportFailure hnote s index outcome) fun _ => ?_
      exact Run.keeps_bind (ih (index + 1) fun f hf => hcall f (List.mem_cons_of_mem _ hf)) fun _ =>
        Run.keeps_pure _

/-- Drives the clock of a scope to its horizon and answers with the outcomes of its assertions. -/
def judge (s : ScopeRef) : Run α σ (List (Except Error Unit)) := do
  Run.update (·.modifyScope s fun scope => { scope with phase := .ending })
  match ← Run.read (·.scopes.get? s) with
  | none => return []
  | some scope =>
    Run.note (.report (.advancing s.scopeId scope.horizon))
    E.advanceTo scope.clock scope.horizon
    let pending ← Run.read fun b => ((b.scopes.get? s).map (·.pending)).getD []
    Run.update (·.modifyScope s fun scope => { scope with pending := [] })
    E.outcomes s scope.options.grid 0 pending

variable {E} {s : ScopeRef} {grid : TimeGrid} {index : Nat} {b b' : Bench α σ}
  {pending : List (Assertion α σ)} {os : List (Except Error Unit)} {answer : Except Error Unit}

theorem verifyAll_eq :
    E.verifyAll s grid index pending =
      E.outcomes s grid index pending >>= fun os => pure (failures os) := by
  induction pending generalizing index with
  | nil => rfl
  | cons a rest ih =>
    rw [verifyAll, outcomes, Run.bind_assoc]
    congr 1
    funext outcome
    cases outcome with
    | ok u =>
      simp only [ih, Run.bind_assoc]
      rfl
    | error e =>
      simp only [ih, Run.bind_assoc]
      rfl

/-- A single assertion is checked. -/
theorem outcomes_singleton {a : Assertion α σ} {outcome : Except Error Unit}
    (h : E.verify s grid a b = (.done outcome, b')) (index : Nat) :
    ∃ b₁, E.outcomes s grid index [a] b = (.done [outcome], b₁) := by
  obtain ⟨b₁, hreport⟩ := reportFailure_done s index outcome b'
  refine ⟨b₁, ?_⟩
  rw [outcomes, Run.bind_done (m := (E.verify s grid a).result) h, Run.bind_done hreport]
  rfl

variable {scope : Scope α σ}

/-- A scope is judged by what it has pending once its clock has reached the horizon. -/
theorem judge_eq_done (hs : b.scopes.get? s = some scope) :
    E.judge s b = (.done os, b') ↔ ∃ b₁, E.advanceTo scope.clock scope.horizon
        ((b.modifyScope s fun scope => { scope with phase := .ending }).note
          (.report (.advancing s.scopeId scope.horizon))) = (.done (), b₁) ∧
      E.outcomes s scope.options.grid 0 (((b₁.scopes.get? s).map (·.pending)).getD [])
        (b₁.modifyScope s fun scope => { scope with pending := [] }) = (.done os, b') := by
  simp only [judge, Run.update_bind, Run.read_bind, Run.note_bind, Bench.get?_modifyScope, hs,
    Option.map_some]
  constructor
  · intro h
    obtain ⟨_, b₁, hadvance, h⟩ := Run.bind_eq_done h
    exact ⟨b₁, hadvance, h⟩
  · rintro ⟨b₁, hadvance, h⟩
    rw [Run.bind_done hadvance]
    exact h

/-- The bench on which a scope with these outcomes is over. -/
def concluded (s : ScopeRef) (os : List (Except Error Unit)) (b : Bench α σ) : Bench α σ :=
  (b.modifyScope s fun scope => { scope with phase := .disposed }).note (.report
    (match failures os with
    | [] => .scopeEnded s.scopeId os.length
    | e :: es => .scopeFailed s.scopeId (e :: es).length os.length))

theorem length_outcomes (h : E.outcomes s grid index pending b = (.done os, b')) :
    os.length = pending.length := by
  induction pending generalizing index b b' os with
  | nil =>
    obtain ⟨rfl, -⟩ := Run.pure_eq_done h
    rfl
  | cons a rest ih =>
    obtain ⟨o, b₁, -, h⟩ := Run.bind_eq_done h
    obtain ⟨_, b₂, -, h⟩ := Run.bind_eq_done h
    obtain ⟨later, b₃, hlater, h⟩ := Run.bind_eq_done h
    obtain ⟨rfl, -⟩ := Run.pure_eq_done h
    simp [ih hlater]

/-- Once a scope has been judged, nothing but its disposal is left to do. -/
theorem settle_of_judge (hs : b.scopes.get? s = some scope) (h : E.judge s b = (.done os, b')) :
    E.settle s b = (.done (verdict os), concluded s os b') := by
  obtain ⟨b₁, hadvance, hout⟩ := (judge_eq_done hs).mp h
  have hverify : E.verifyAll s scope.options.grid 0 (((b₁.scopes.get? s).map (·.pending)).getD [])
      (b₁.modifyScope s fun scope => { scope with pending := [] }) =
        (.done (failures os), b') := by
    rw [verifyAll_eq, Run.bind_done hout]
    rfl
  have hlength := length_outcomes hout
  simp only [settle, Attempt.update_bind, Attempt.read_bind, Attempt.note_bind,
    Bench.get?_modifyScope, hs, Option.map_some]
  rw [Attempt.bind_ok (Attempt.lift_done hadvance), Attempt.read_bind, Attempt.update_bind,
    Attempt.bind_ok (Attempt.lift_done hverify), Attempt.update_bind]
  rw [verdict, concluded, hlength]
  cases failures os <;> rfl

/-- A scope that comes to its end has been judged, and it answers with the verdict. -/
theorem settle_eq_done (hs : b.scopes.get? s = some scope) :
    (E.settle s b).1 = .done answer ↔
      ∃ os b', E.judge s b = (.done os, b') ∧ answer = verdict os := by
  constructor
  · intro h
    simp only [settle, Attempt.update_bind, Attempt.read_bind, Attempt.note_bind,
      Bench.get?_modifyScope, hs, Option.map_some] at h
    obtain ⟨_, b₁, hadvance, h⟩ := Attempt.lift_bind_eq_done (Prod.ext h rfl)
    rw [Attempt.read_bind, Attempt.update_bind] at h
    obtain ⟨_, b₂, hverify, h⟩ := Attempt.lift_bind_eq_done h
    rw [verifyAll_eq] at hverify
    obtain ⟨os, _, hout, hpure⟩ := Run.bind_eq_done hverify
    obtain ⟨rfl, rfl⟩ := Run.pure_eq_done hpure
    refine ⟨os, _, (judge_eq_done hs).mpr ⟨b₁, hadvance, hout⟩, ?_⟩
    rw [Attempt.update_bind] at h
    rw [verdict]
    cases hf : failures os with
    | nil => exact (Outcome.done.inj (congrArg Prod.fst (hf ▸ h))).symm
    | cons e rest => exact (Outcome.done.inj (congrArg Prod.fst (hf ▸ h))).symm
  · rintro ⟨os, b', hjudge, rfl⟩
    rw [settle_of_judge hs hjudge]

/-- The innermost scope is settled, and leaves the stack whatever comes of that. -/
theorem endInnermost_top {rest : List ScopeRef} (hstack : b.stack = s :: rest) :
    (E.endInnermost s).result b = ((E.settle s b).1, (E.settle s b).2.removeScope s) := by
  change (Attempt.read (·.stack) >>= _) b = _
  rw [Attempt.read_bind, hstack]
  simp only [↓reduceIte]
  rfl

/-- Ending the innermost scope answers what settling it does. -/
theorem endScope_eq_done {rest : List ScopeRef} (hstack : b.stack = s :: rest) :
    (E.endScope s b).1 = .done answer ↔ (E.settle s b).1 = .done answer := by
  have hinner := endInnermost_top (E := E) hstack
  constructor
  · intro h
    obtain ⟨outcome, b₁, hrun, h⟩ := Attempt.lift_bind_eq_done (Prod.ext h rfl)
    obtain ⟨_, b₂, _, h⟩ := Attempt.lift_bind_eq_done h
    obtain rfl : outcome = answer := Outcome.done.inj (congrArg Prod.fst h)
    exact congrArg Prod.fst (hinner.symm.trans hrun)
  · intro h
    rw [h] at hinner
    obtain ⟨b₂, hgive⟩ := giveUpIfUnbalanced_done s answer ((E.settle s b).2.removeScope s)
    rw [endScope, Attempt.bind_ok (Attempt.lift_done hinner),
      Attempt.bind_ok (Attempt.lift_done hgive)]
    rfl

end Engine

end Marble
