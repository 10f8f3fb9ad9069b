import Marble.Proofs.Multicast
import Marble.Proofs.Recording

/-! Actions that serve recorders and nobody else: no code of the client runs when they start, and
what each of them does is a function of the bench. -/
namespace Marble

variable {α σ : Type} {E : Engine α σ} {b b' b'' : Bench α σ} {a : Action α σ} {s : SourceRef}
  {r : RecorderRef} {sub sub' : SubscriptionRef} {n : Signal α} {o : Observer α}

@[simp] theorem Table.isSome_get?_modify {k : Kind} {β : Type} (t : Table k β) (x y : Ref k)
    (f : β → β) : ((t.modify x f).get? y).isSome = (t.get? y).isSome := by
  rw [Table.get?_modify]
  split
  · rw [Option.isSome_map]
  · rfl

theorem Table.isSome_get?_push {k : Kind} {β : Type} {t : Table k β} {x : Ref k} (row : β)
    (h : (t.get? x).isSome) : ((t.push row).get? x).isSome := by
  rw [Table.get?_push]
  split
  · rfl
  · exact h

/-- What comes of a notification for a recorder when it is handed to an observer. -/
def Observer.told (o : Observer α) (r : RecorderRef) (n : Signal α) : Option (Signal α) :=
  if o.sink = .recorder r then Stage.through o.stages n else none

/-- A recorder once notifications have come to it at one instant, one after the other. -/
def Recorder.takeAll (row : Recorder α) (now : VirtualTime) (ms : List (Signal α)) : Recorder α :=
  ms.foldl (fun row m => row.record now m) row

@[simp] theorem Recorder.record_clock (row : Recorder α) (t : VirtualTime) (m : Signal α) :
    (row.record t m).clock = row.clock := by
  rw [record]
  split <;> rfl

@[simp] theorem Recorder.detach_clock (row : Recorder α) : row.detach.clock = row.clock := by
  rw [detach]
  split <;> rfl

@[simp] theorem Recorder.takeAll_clock (row : Recorder α) (t : VirtualTime) (ms : List (Signal α)) :
    (row.takeAll t ms).clock = row.clock := by
  induction ms generalizing row with
  | nil => rfl
  | cons m rest ih => exact (ih (row.record t m)).trans (row.record_clock t m)

theorem Recorder.outlook_takeAll (row : Recorder α) (t : VirtualTime) (ms : List (Signal α))
    (coming : List (Timed (Signal α))) :
    (row.takeAll t ms).outlook coming = row.outlook (ms.map (⟨t, ·⟩) ++ coming) := by
  induction ms generalizing row with
  | nil => rfl
  | cons m rest ih => exact (ih (row.record t m)).trans (row.outlook_record t m)

theorem Recorder.listening_of_takeAll {row : Recorder α} {t : VirtualTime} {ms : List (Signal α)}
    (h : (row.takeAll t ms).state = .listening) : row.state = .listening := by
  induction ms generalizing row with
  | nil => exact h
  | cons m rest ih => exact row.listening_of_record (ih h)

/-- Whether an action ends a recording. -/
def Action.releases (r : RecorderRef) : Action α σ → Bool
  | .release r' _ => r' = r
  | _ => false

/-- The subscription that an action disposes. -/
def Action.disposes? : Action α σ → Option SubscriptionRef
  | .release _ sub => some sub
  | _ => none

/-- A source apart from its subscriptions. -/
def Source.bare (source : Source α) : Source α := { source with log := [], attached := [] }

namespace Bench

/-- The observers attached to a source, under the numbers of their log entries. -/
def attached (b : Bench α σ) (s : SourceRef) : List (Nat × Observer α) :=
  ((b.sources.get? s).map (·.attached)).getD []

/-- The recorders once an observer has handed a notification to the one it serves. -/
def hand (b : Bench α σ) (n : Signal α) (rows : Table .recorder (Recorder α)) (o : Observer α) :
    Table .recorder (Recorder α) :=
  match o.sink, Stage.through o.stages n with
  | .recorder r, some m => rows.modify r fun row => row.record (b.now row.clock) m
  | _, _ => rows

/-- A notification is handed to observers in turn. -/
def tell (b : Bench α σ) (os : List (Observer α)) (n : Signal α) : Bench α σ :=
  { b with recorders := os.foldl (b.hand n) b.recorders }

/-- The log entry that is closed when a subscription is disposed now, and the source it belongs
to. -/
def departs? (b : Bench α σ) (sub : SubscriptionRef) : Option (SourceRef × Nat) :=
  if b.isActive sub then b.leaves? sub else none

/-- A subscription is over, and it leaves its source. -/
def retire (b : Bench α σ) (sub : SubscriptionRef) : Bench α σ :=
  { b.deactivate sub with
    sources := match b.departs? sub with
      | some (s, entry) => b.sources.modify s fun source => source.leave entry (b.now source.clock)
      | none => b.sources }

/-- What an action does that serves recorders. -/
def enact (b : Bench α σ) : Action α σ → Bench α σ
  | .deliver sub o n => if b.isActive sub then b.tell [o] n else b
  | .multicast s n => b.tell (b.observers s) n
  | .release r sub => (b.detach r).retire sub
  | _ => b

/-- What a mute action tells a recorder. -/
def tells (b : Bench α σ) (r : RecorderRef) : Action α σ → List (Signal α)
  | .deliver sub o n => if b.isActive sub then (o.told r n).toList else []
  | .multicast s n => (b.observers s).filterMap (·.told r n)
  | _ => []

/-- An observer serves a recorder there is, and nothing is noted on the way to it. -/
structure Serves (b : Bench α σ) (o : Observer α) : Prop where
  silent : ∀ stage ∈ o.stages, stage.isSilent
  recorder : ∃ r, o.sink = .recorder r ∧ (b.recorders.get? r).isSome

/-- An action has to do with recorders there are, and with nobody else. -/
def Mute (b : Bench α σ) : Action α σ → Prop
  | .deliver sub o _ => (b.subscriptions.get? sub).isSome ∧ b.Serves o
  | .multicast s _ => ∀ o ∈ b.observers s, b.Serves o
  | .release r sub => (b.recorders.get? r).isSome ∧
    ∃ row, b.subscriptions.get? sub = some row ∧ row.teardown.isQuiet
  | _ => False

/-! ### What a mute action does -/

theorem Serves.notify (h : b.Serves o) (n : Signal α) (rows : Table .recorder (Recorder α)) :
    E.notify o n { b with recorders := rows } =
      (.done (), { b with recorders := b.hand n rows o }) := by
  obtain ⟨r, hsink, -⟩ := h.recorder
  rw [Engine.notify, Run.change_bind, pass_silent h.silent, hand, hsink]
  cases Stage.through o.stages n <;> rfl

theorem isAttached_of_mem {source : Source α} (hs : b.sources.get? s = some source)
    {x : Nat × Observer α} (hx : x ∈ source.attached) : b.isAttached s x.1 := by
  simp only [isAttached, hs, Option.map_some, Option.getD_some, Source.isAttached, List.any_eq_true]
  exact ⟨x, hx, beq_self_eq_true _⟩

/-- Nobody is detached while a notification goes round observers that serve recorders. -/
theorem each_offer {source : Source α} (hs : b.sources.get? s = some source) (n : Signal α)
    {xs : List (Nat × Observer α)} (hxs : ∀ x ∈ xs, x ∈ source.attached ∧ b.Serves x.2)
    (rows : Table .recorder (Recorder α)) :
    Run.each (E.offer s n) xs { b with recorders := rows } =
      (.done (), { b with recorders := (xs.map (·.2)).foldl (b.hand n) rows }) := by
  induction xs generalizing rows with
  | nil => rfl
  | cons x rest ih =>
    obtain ⟨hmem, hserves⟩ := hxs x (by simp)
    have hattached : ({ b with recorders := rows } : Bench α σ).isAttached s x.1 :=
      isAttached_of_mem (b := { b with recorders := rows }) hs hmem
    have hoffer := Engine.offer_attached (E := E) (n := n) (o := x.2) hattached
    rw [Run.each, Run.bind_done (hoffer.trans (hserves.notify n rows)),
      ih (fun y hy => hxs y (by simp [hy]))]
    rfl

theorem dispose_eq {row : Subscription σ} (hrow : b.subscriptions.get? sub = some row)
    (hquiet : row.teardown.isQuiet) : E.dispose sub b = (.done (), b.retire sub) := by
  obtain ⟨active, teardown⟩ := row
  rw [Engine.dispose, Run.read_bind, hrow]
  cases active with
  | false =>
    have hsame : b.deactivate sub = b := by
      rw [deactivate, Table.modify_congr (g := fun row => row), Table.modify_id]
      intro row h
      obtain rfl := Option.some.inj (hrow.symm.trans h)
      rfl
    have hretire : b.retire sub = b := by
      simp [retire, departs?, isActive, hrow, hsame]
    rw [hretire]
    rfl
  | true =>
    cases teardown with
    | call f => cases hquiet
    | nothing => simp [retire, departs?, isActive, leaves?, hrow, Teardown.leaves?]; rfl
    | leave s entry => simp [retire, departs?, isActive, leaves?, hrow, Teardown.leaves?]; rfl

/-- A mute action gets done, and this is what it does. -/
theorem Mute.perform (h : b.Mute a) : E.perform a b = (.done (), b.enact a) := by
  cases a with
  | deliver sub o n =>
    rw [Engine.perform, Run.read_bind, enact]
    split
    · exact h.2.notify n b.recorders
    · rfl
  | multicast s n =>
    cases hs : b.sources.get? s with
    | none =>
      rw [Engine.perform, Engine.multicast, Run.read_bind, enact, observers, hs]
      rfl
    | some source =>
      have hserves : ∀ x ∈ source.attached, x ∈ source.attached ∧ b.Serves x.2 := fun x hx =>
        ⟨hx, h x.2 (by rw [observers_of_source hs]; exact List.mem_map_of_mem hx)⟩
      have hround := each_offer (E := E) hs n hserves b.recorders
      rw [Engine.perform, Engine.multicast, Run.read_bind, hs, enact, observers_of_source hs]
      exact hround
  | release r sub =>
    obtain ⟨-, row, hrow, hquiet⟩ := h
    rw [Engine.perform, Run.update_bind, enact]
    exact dispose_eq (b := b.detach r) hrow hquiet
  | invoke e => exact h.elim
  | push o n => exact h.elim
  | openRun r f => exact h.elim
  | closeRun r => exact h.elim

/-! ### What comes of a mute action -/

@[simp] theorem enact_clocks (b : Bench α σ) (a : Action α σ) : (b.enact a).clocks = b.clocks := by
  cases a with
  | deliver sub o n => rw [enact]; split <;> rfl
  | _ => rfl

@[simp] theorem enact_scopes (b : Bench α σ) (a : Action α σ) : (b.enact a).scopes = b.scopes := by
  cases a with
  | deliver sub o n => rw [enact]; split <;> rfl
  | _ => rfl

@[simp] theorem enact_stack (b : Bench α σ) (a : Action α σ) : (b.enact a).stack = b.stack := by
  cases a with
  | deliver sub o n => rw [enact]; split <;> rfl
  | _ => rfl

theorem enact_next (b : Bench α σ) (a : Action α σ) :
    (b.enact a).sources.next = b.sources.next := by
  cases a with
  | deliver sub o n => rw [enact]; split <;> rfl
  | release r sub =>
    rw [enact, retire]
    cases (b.detach r).departs? sub with
    | none => rfl
    | some x => simp [Table.next, Table.modify, detach]
  | _ => rfl

/-- A recorder takes in what the observers tell it. -/
theorem get?_tell (b : Bench α σ) (os : List (Observer α)) (n : Signal α) (r : RecorderRef) :
    (b.tell os n).recorders.get? r = (b.recorders.get? r).map fun row =>
      row.takeAll (b.now row.clock) (os.filterMap (·.told r n)) := by
  change (os.foldl (b.hand n) b.recorders).get? r = _
  generalize b.recorders = rows
  induction os generalizing rows with
  | nil => simp [Recorder.takeAll]
  | cons o rest ih =>
    rw [List.foldl_cons, ih, hand, List.filterMap_cons, Observer.told]
    cases hsink : o.sink with
    | listener l => simp
    | recorder r' =>
      cases hthrough : Stage.through o.stages n with
      | none => simp
      | some m =>
        by_cases hr : r' = r
        · simp [hr, Table.get?_modify, Function.comp_def, Recorder.takeAll]
        · simp [hr, Table.get?_modify]

/-- A recorder is detached if the action ends its recording, and takes in what it is told. -/
theorem get?_enact (b : Bench α σ) (a : Action α σ) (r : RecorderRef) :
    (b.enact a).recorders.get? r = (b.recorders.get? r).map fun row =>
      (if a.releases r then row.detach else row).takeAll (b.now row.clock) (b.tells r a) := by
  cases a with
  | deliver sub o n =>
    rw [enact, tells]
    split
    · rw [get?_tell, List.filterMap_cons]
      cases o.told r n <;> rfl
    · simp [Action.releases, Recorder.takeAll]
  | multicast s n => exact get?_tell b _ n r
  | release r' sub =>
    change (b.recorders.modify r' _).get? r = _
    rw [Table.get?_modify]
    by_cases hr : r' = r <;> simp [hr, Action.releases, tells, Recorder.takeAll]
  | _ => simp [enact, Action.releases, tells, Recorder.takeAll]

theorem leaves?_retire (b : Bench α σ) (sub : SubscriptionRef) :
    (b.retire sub).leaves? = b.leaves? := leaves?_deactivate b sub

theorem isActive_retire (b : Bench α σ) (sub sub' : SubscriptionRef) :
    (b.retire sub).isActive sub' = (b.isActive sub' && sub' != sub) :=
  isActive_deactivate b sub sub'

theorem leaves?_enact (b : Bench α σ) (a : Action α σ) : (b.enact a).leaves? = b.leaves? := by
  cases a with
  | deliver sub o n => rw [enact]; split <;> rfl
  | release r sub => exact leaves?_retire _ sub
  | _ => rfl

theorem isActive_enact (b : Bench α σ) (a : Action α σ) (sub : SubscriptionRef) :
    (b.enact a).isActive sub = (b.isActive sub && decide (a.disposes? ≠ some sub)) := by
  cases a with
  | deliver sub' o n => rw [enact]; split <;> simp [Action.disposes?, tell, isActive]
  | release r sub' =>
    rw [enact, isActive_retire]
    by_cases h : sub = sub'
    · simp [Action.disposes?, h]
    · simp [Action.disposes?, h, Ne.symm h, detach, isActive]
  | _ => simp [enact, Action.disposes?, tell, isActive]

/-- Whoever stands under the entry of the subscription is detached. -/
theorem attached_retire (b : Bench α σ) (sub : SubscriptionRef) (s : SourceRef) :
    (b.retire sub).attached s =
      (b.attached s).filter fun x => decide (b.departs? sub ≠ some (s, x.1)) := by
  rw [attached, retire]
  cases hdeparts : b.departs? sub with
  | none => simp [attached]
  | some x =>
    obtain ⟨t, entry⟩ := x
    rw [attached]
    by_cases hs : t = s
    · subst hs
      rw [Table.get?_modify, if_pos rfl]
      cases b.sources.get? t with
      | none => rfl
      | some source =>
        refine List.filter_congr fun x _ => ?_
        by_cases hx : x.1 = entry
        · simp [hx]
        · simp [hx, Ne.symm hx]
    · simp [Table.get?_modify, hs]

theorem attached_enact (b : Bench α σ) (a : Action α σ) (s : SourceRef) :
    (b.enact a).attached s =
      (b.attached s).filter fun x => decide (a.disposes?.bind b.departs? ≠ some (s, x.1)) := by
  cases a with
  | deliver sub o n => rw [enact]; split <;> simp [Action.disposes?, tell, attached]
  | release r sub => exact attached_retire _ sub s
  | _ => simp [enact, Action.disposes?, tell, attached]

theorem bare_enact (b : Bench α σ) (a : Action α σ) (s : SourceRef) :
    ((b.enact a).sources.get? s).map Source.bare = (b.sources.get? s).map Source.bare := by
  cases a with
  | deliver sub o n => rw [enact]; split <;> rfl
  | release r sub =>
    rw [enact, retire]
    cases (b.detach r).departs? sub with
    | none => rfl
    | some x =>
      change ((b.sources.modify x.1 _).get? s).map Source.bare = _
      rw [Table.get?_modify]
      split
      · cases b.sources.get? s <;> rfl
      · rfl
  | _ => rfl

end Bench

end Marble
