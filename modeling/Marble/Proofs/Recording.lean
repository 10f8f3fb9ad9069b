import Marble.Proofs.Run
import Marble.Proofs.Watch

/-! The actions of a watch do their work: what is on its way arrives, and recording ends on time. -/
namespace Marble

variable {α σ : Type}

/-- No code of the client runs at the disposal. -/
def Teardown.isQuiet : Teardown σ → Bool
  | .nothing | .leave .. => true
  | .call _ => false

/-- Clocks and scopes are as they were. -/
structure Bench.SameSetting (b b' : Bench α σ) : Prop where
  clocks : b'.clocks = b.clocks
  scopes : b'.scopes = b.scopes
  stack : b'.stack = b.stack

theorem Bench.SameSetting.refl (b : Bench α σ) : SameSetting b b := ⟨rfl, rfl, rfl⟩

variable {E : Engine α σ} {b : Bench α σ}

theorem Engine.dispose_quiet {s : SubscriptionRef} {sub : Subscription σ}
    (hs : b.subscriptions.get? s = some sub) (hq : sub.teardown.isQuiet) :
    ∃ b', E.dispose s b = (.done (), b') ∧ b.SameSetting b' ∧ b'.recorders = b.recorders ∧
      b'.subscriptions.get? s = some { sub with active := false } := by
  obtain ⟨active, teardown⟩ := sub
  rw [dispose]
  rw [Run.read_bind, hs]
  cases active with
  | false => exact ⟨b, rfl, .refl b, rfl, hs⟩
  | true =>
    cases teardown with
    | call f => simp [Teardown.isQuiet] at hq
    | nothing => exact ⟨_, rfl, ⟨rfl, rfl, rfl⟩, rfl, by simp [Table.get?_modify, hs]⟩
    | leave source entry =>
      exact ⟨_, rfl, ⟨rfl, rfl, rfl⟩, rfl, by simp [Bench.leave, Table.get?_modify, hs]⟩

namespace Watch

variable {w : Watch} {row : Recorder α}

/-- The actions that serve the recorder and nobody else. -/
def Owns (w : Watch) : Action α σ → Prop
  | .deliver s o _ =>
    s = w.sub ∧ o.sink = .recorder w.recorder ∧ ∀ stage ∈ o.stages, stage.isSilent
  | .release r s => r = w.recorder ∧ s = w.sub
  | .closeRun r => r = w.recorder
  | _ => False

/-- The recorder goes by its clock and listens to its subscription alone, which is active as long as
the recorder listens. -/
structure Intact (w : Watch) (b : Bench α σ) (row : Recorder α) : Prop where
  recorder : b.recorders.get? w.recorder = some row
  sameClock : row.clock = w.clock
  held : ∀ s, row.held = some s → s = w.sub
  sub : ∃ sub, b.subscriptions.get? w.sub = some sub ∧ sub.teardown.isQuiet ∧
    (row.state = .listening → sub.active = true)

theorem Intact.messages (h : w.Intact b row) : b.messages w.recorder = row.outlook [] := by
  simp [Bench.messages, h.recorder]

/-- What stays as it is keeps a watch intact. -/
theorem Intact.congr {b' : Bench α σ} (h : w.Intact b row)
    (hr : b'.recorders.get? w.recorder = b.recorders.get? w.recorder)
    (hs : b'.subscriptions.get? w.sub = b.subscriptions.get? w.sub) : w.Intact b' row :=
  ⟨hr.trans h.recorder, h.sameClock, h.held, by rw [hs]; exact h.sub⟩

theorem perform_deliver (h : w.Intact b row) {o : Observer α} (ho : o.sink = .recorder w.recorder)
    (hsilent : ∀ stage ∈ o.stages, stage.isSilent) (n : Signal α) :
    ∃ b' row', E.perform (.deliver w.sub o n) b = (.done (), b') ∧ w.Intact b' row' ∧
      b.SameSetting b' ∧ (row'.state = .listening → row.state = .listening) ∧
      ∀ coming, row'.outlook coming =
        row.outlook (((Stage.through o.stages n).map fun m => ⟨b.now w.clock, m⟩).toList ++
          coming) := by
  obtain ⟨sub, hsub, hquiet, hactive⟩ := h.sub
  have hread : b.isActive w.sub = sub.active := by simp [Bench.isActive, hsub]
  rw [Engine.perform, Run.read_bind, hread]
  cases ha : sub.active with
  | false =>
    have hstate : row.state ≠ .listening := fun hl => by simp [hactive hl] at ha
    refine ⟨b, row, rfl, h, .refl b, id, fun coming => ?_⟩
    rw [Recorder.outlook_of_ne hstate, Recorder.outlook_of_ne hstate]
  | true =>
    simp only [↓reduceIte, Engine.notify, Run.change_bind, Bench.pass_silent hsilent, ho]
    cases Stage.through o.stages n with
    | none => exact ⟨b, row, rfl, h, .refl b, id, fun _ => rfl⟩
    | some m =>
      refine ⟨b.record w.recorder m, row.record (b.now w.clock) m, rfl, ⟨?_, ?_, ?_, ?_⟩,
        ⟨rfl, rfl, rfl⟩, row.listening_of_record, fun coming => row.outlook_record _ m⟩
      · simp [Bench.record, Table.get?_modify, h.recorder, h.sameClock]
      · rw [Recorder.record]
        split <;> exact h.sameClock
      · rw [Recorder.record]
        split <;> exact h.held
      · exact ⟨sub, hsub, hquiet, fun _ => ha⟩

/-- Disposing the subscription of a recorder that no longer listens leaves the recorder as it is. -/
theorem dispose_sub (h : w.Intact b row) (hstate : row.state ≠ .listening) :
    ∃ b', E.dispose w.sub b = (.done (), b') ∧ w.Intact b' row ∧ b.SameSetting b' := by
  obtain ⟨sub, hsub, hquiet, _⟩ := h.sub
  obtain ⟨b', hrun, hsame, hrec, hsub'⟩ := Engine.dispose_quiet (E := E) hsub hquiet
  exact ⟨b', hrun, ⟨by rw [hrec]; exact h.recorder, h.sameClock, h.held,
    ⟨_, hsub', hquiet, fun hl => (hstate hl).elim⟩⟩, hsame⟩

theorem Intact.detach (h : w.Intact b row) : w.Intact (b.detach w.recorder) row.detach := by
  refine ⟨by simp [Bench.detach, Table.get?_modify, h.recorder], ?_, ?_, ?_⟩
  · rw [Recorder.detach]
    split <;> exact h.sameClock
  · rw [Recorder.detach]
    split <;> exact h.held
  · obtain ⟨sub, hsub, hquiet, _⟩ := h.sub
    exact ⟨sub, hsub, hquiet, fun hl => (row.detach_state hl).elim⟩

theorem perform_release (h : w.Intact b row) :
    ∃ b', E.perform (.release w.recorder w.sub) b = (.done (), b') ∧ w.Intact b' row.detach ∧
      b.SameSetting b' := by
  obtain ⟨b', hrun, hint, hsame⟩ := dispose_sub (E := E) h.detach row.detach_state
  exact ⟨b', hrun, hint, ⟨hsame.clocks, hsame.scopes, hsame.stack⟩⟩

theorem perform_closeRun (h : w.Intact b row) :
    ∃ b' row', E.perform (.closeRun w.recorder) b = (.done (), b') ∧ w.Intact b' row' ∧
      b.SameSetting b' ∧ row'.state = row.detach.state ∧ row'.messages = row.detach.messages := by
  have hd := h.detach
  simp only [Engine.perform, Run.update_bind, Run.read_bind, hd.recorder, Option.bind_some]
  cases hs : row.detach.held with
  | none => exact ⟨_, row.detach, rfl, hd, ⟨rfl, rfl, rfl⟩, rfl, rfl⟩
  | some s =>
    obtain rfl := hd.held s hs
    dsimp only
    rw [Run.update_bind]
    have hd' : w.Intact { b.detach w.recorder with
        recorders := (b.detach w.recorder).recorders.modify w.recorder fun row =>
          { row with held := none } } { row.detach with held := none } :=
      ⟨by simp [Table.get?_modify, hd.recorder], hd.sameClock, by simp, hd.sub⟩
    obtain ⟨b', hrun, hint, hsame⟩ := dispose_sub (E := E) hd' row.detach_state
    exact ⟨b', _, hrun, hint, ⟨hsame.clocks, hsame.scopes, hsame.stack⟩, rfl, rfl⟩

/-- An action of the watch turns what was to come first into what has been taken in. -/
theorem perform_own (h : w.Intact b row) {p : Pending (Action α σ)} (ho : w.Owns p.action)
    (hnow : b.now w.clock = p.due) :
    ∃ b' row', E.perform p.action b = (.done (), b') ∧ w.Intact b' row' ∧ b.SameSetting b' ∧
      (row'.state = .listening → row.state = .listening ∧ w.stops p.action = false) ∧
      ∀ rest, row'.outlook (w.arrivals rest) = row.outlook (w.arrivals (p :: rest)) := by
  obtain ⟨due, sequence, action⟩ := p
  cases action with
  | deliver s o n =>
    obtain ⟨rfl, hsink, hsilent⟩ := ho
    obtain ⟨b', row', hrun, hint, hsame, hlisten, hout⟩ :=
      perform_deliver (E := E) h hsink hsilent n
    refine ⟨b', row', hrun, hint, hsame, fun hl => ⟨hlisten hl, rfl⟩, fun rest => ?_⟩
    rw [hout]
    simp [arrivals, arrival?, stops, hsink, hnow]
  | release r s =>
    obtain ⟨rfl, rfl⟩ := ho
    obtain ⟨b', hrun, hint, hsame⟩ := perform_release (E := E) h
    refine ⟨b', row.detach, hrun, hint, hsame, fun hl => (row.detach_state hl).elim, fun rest => ?_⟩
    simp [arrivals, stops]
  | closeRun r =>
    obtain rfl : r = w.recorder := ho
    obtain ⟨b', row', hrun, hint, hsame, hstate, hmess⟩ := perform_closeRun (E := E) h
    have hne : row'.state ≠ .listening := hstate ▸ row.detach_state
    refine ⟨b', row', hrun, hint, hsame, fun hl => (hne hl).elim, fun rest => ?_⟩
    have hcut := row.outlook_detach (w.arrivals rest)
    rw [Recorder.outlook_of_ne hne, hmess, ← Recorder.outlook_of_ne row.detach_state, hcut]
    simp [arrivals, stops]
  | invoke e => exact ho.elim
  | multicast s n => exact ho.elim
  | push o n => exact ho.elim
  | openRun r f => exact ho.elim

end Watch

end Marble
