import Marble.Proofs.Mute
import Marble.Proofs.RoundTrip

/-! A notification that is handed to an observer: what its stages note and what they leave of it,
what its sink does with that, and who is called then. All of it but the calls happens at once. -/
namespace Marble

variable {α σ : Type}

namespace Stage

variable {stages before after : List (Stage α)} {n m : Signal α}

/-- What a stage notes of a notification that comes to it. -/
def mark : Stage α → Signal α → List (Entry α)
  | .inspect name, n => [.inspected name n]
  | _, _ => []

/-- What stages note of a notification, the first stage first, until one of them drops it. -/
def marks : List (Stage α) → Signal α → List (Entry α)
  | [], _ => []
  | stage :: rest, n => stage.mark n ++ (stage.transform n).elim [] (marks rest)

/-- Whether a stage rings a probe. -/
def rings : Stage α → Bool
  | .stamp _ => true
  | _ => false

/-- A pipeline does what its first part does, and then what the rest of it does with what that
leaves. -/
theorem through_append (before after : List (Stage α)) (n : Signal α) :
    through (before ++ after) n = (through before n).bind (through after) := by
  induction before generalizing n with
  | nil => rfl
  | cons stage rest ih =>
    rw [List.cons_append, through, through]
    cases stage.transform n with
    | none => rfl
    | some m => exact ih m

theorem marks_append (before after : List (Stage α)) (n : Signal α) :
    marks (before ++ after) n = marks before n ++ (through before n).elim [] (marks after) := by
  induction before generalizing n with
  | nil => rfl
  | cons stage rest ih =>
    rw [List.cons_append, marks, marks, through]
    cases stage.transform n with
    | none => simp
    | some m => simp [ih]

/-- An inspecting stage notes once what the stages before it leave, and nothing behind it notes
anything before that. -/
theorem marks_inspect (before after : List (Stage α)) (name : String) (n : Signal α) :
    marks (before ++ .inspect name :: after) n =
      marks before n ++
        (through before n).elim [] fun m => .inspected name m :: marks after m := by
  rw [marks_append]
  rfl

example : marks [.map (· + 1), .inspect "early", .filter (3 < ·), .inspect "late"] (.next 2) =
    [.inspected "early" (.next 3)] := rfl

/-- On values, pipelines compose as partial functions do. -/
theorem act_append (before after : List (Stage α)) (v : α) :
    act (before ++ after) v = (act before v).bind (act after) := by
  induction before generalizing v with
  | nil => rfl
  | cons stage rest ih =>
    cases stage with
    | map f => exact ih (f v)
    | filter keep =>
      rw [List.cons_append, act, act]
      split
      · exact ih v
      · rfl
    | inspect name => exact ih v
    | stamp probe => exact ih v

theorem isHeard_of_mem_marks {e : Entry α} (h : e ∈ marks stages n) : e.isHeard := by
  induction stages generalizing n with
  | nil => cases h
  | cons stage rest ih =>
    rw [marks] at h
    rcases List.mem_append.mp h with h | h
    · cases stage with
      | inspect name =>
        obtain rfl := List.mem_singleton.mp h
        rfl
      | _ => cases h
    · cases hm : stage.transform n with
      | none => simp [hm] at h
      | some m => exact ih (by simpa [hm] using h)

end Stage

namespace Timeline

/-- A timeline behind a pipeline is what its first part leaves, behind the rest of it. -/
theorem through_append_stages (before after : List (Stage α)) (tl : List (Timed (Signal α))) :
    through (before ++ after) tl = through after (through before tl) := by
  rw [through, through, through, List.filterMap_filterMap]
  congr 1
  funext e
  rw [Stage.through_append]
  cases Stage.through before e.value <;> rfl

end Timeline

namespace Bench

variable {b : Bench α σ} {o : Observer α} {n : Signal α}

theorem log_witness (b : Bench α σ) (stage : Stage α) (n : Signal α) :
    ∃ probes, b.witness stage n = { b with log := b.log ++ (stage.mark n).toArray, probes } ∧
      (stage.rings = false → probes = b.probes) := by
  cases stage with
  | inspect name => exact ⟨b.probes, by simp [witness, note, Stage.mark], fun _ => rfl⟩
  | stamp p =>
    cases n with
    | next v => exact ⟨_, by simp [witness, stamp, Stage.mark]; rfl, fun h => by cases h⟩
    | _ => exact ⟨b.probes, by simp [witness, Stage.mark], fun h => by cases h⟩
  | _ => exact ⟨b.probes, by simp [witness, Stage.mark], fun _ => rfl⟩

/-- What stages do with a notification that passes them: the log gets their notes, and nothing else
changes but the probes that are rung. -/
theorem pass_eq (b : Bench α σ) (stages : List (Stage α)) (n : Signal α) :
    ∃ probes, b.pass stages n = (Stage.through stages n,
        { b with log := b.log ++ (Stage.marks stages n).toArray, probes }) ∧
      ((∀ stage ∈ stages, stage.rings = false) → probes = b.probes) := by
  induction stages generalizing b n with
  | nil => exact ⟨b.probes, by simp [pass, Stage.through, Stage.marks], fun _ => rfl⟩
  | cons stage rest ih =>
    obtain ⟨probes, hwitness, hsilent⟩ := log_witness b stage n
    rw [pass, hwitness, Stage.through, Stage.marks]
    cases stage.transform n with
    | none => exact ⟨probes, by simp, fun h => hsilent (h stage (by simp))⟩
    | some m =>
      obtain ⟨probes', hrest, hquiet⟩ :=
        ih { b with log := b.log ++ (stage.mark n).toArray, probes } m
      refine ⟨probes', by simp [hrest], fun h => ?_⟩
      rw [hquiet fun stage hmem => h stage (by simp [hmem])]
      exact hsilent (h stage (by simp))

/-- What a sink does with a notification before it calls anybody. -/
def take (b : Bench α σ) : Sink → Signal α → Bench α σ
  | .recorder r, n => b.record r n
  | .listener l, n =>
    match b.listeners.get? l with
    | none => b
    | some row =>
      { b.note (.received row.name n) with
        listeners := b.listeners.modify l fun r => { r with received := r.received + 1 } }

/-- The callbacks that a sink runs on its next notification. -/
def called (b : Bench α σ) : Sink → List σ
  | .recorder _ => []
  | .listener l =>
    ((b.listeners.get? l).map fun row =>
      (row.rules.filter (·.1 == row.received)).map (·.2)).getD []

/-- What the log tells of a notification that has come to a sink. -/
def shown (b : Bench α σ) : Sink → Signal α → List (Entry α)
  | .recorder _, _ => []
  | .listener l, n => ((b.listeners.get? l).map fun row => [.received row.name n]).getD []

/-- An observer gets a notification, and nobody is called yet. -/
def receive (b : Bench α σ) (o : Observer α) (n : Signal α) : Bench α σ :=
  let (left, b') := b.pass o.stages n
  left.elim b' (b'.take o.sink)

/-- The callbacks that run once an observer has got a notification. -/
def echoes (b : Bench α σ) (o : Observer α) (n : Signal α) : List σ :=
  (Stage.through o.stages n).elim [] fun _ => b.called o.sink

theorem take_eq (b : Bench α σ) (k : Sink) (n : Signal α) :
    ∃ listeners recorders, b.take k n =
      { b with log := b.log ++ (b.shown k n).toArray, listeners, recorders } := by
  cases k with
  | recorder r => exact ⟨b.listeners, _, by simp [take, shown, record]; rfl⟩
  | listener l =>
    cases hrow : b.listeners.get? l with
    | none => exact ⟨b.listeners, b.recorders, by simp [take, shown, hrow]⟩
    | some row => exact ⟨_, b.recorders, by simp [take, shown, hrow, note]; rfl⟩

theorem get?_take (b : Bench α σ) (k : Sink) (n : Signal α) (r : RecorderRef) :
    (b.take k n).recorders.get? r = (b.recorders.get? r).map fun row =>
      row.takeAll (b.now row.clock) (if k = .recorder r then [n] else []) := by
  cases k with
  | recorder r' =>
    simp only [take, record, Table.get?_modify, Sink.recorder.injEq]
    by_cases hr : r' = r <;> simp [hr, Recorder.takeAll]
  | listener l =>
    rw [take]
    split <;> simp [Recorder.takeAll, note]

/-- Nothing changes when an observer gets a notification but the log, the probes, and the sink. -/
theorem receive_eq (b : Bench α σ) (o : Observer α) (n : Signal α) :
    ∃ log probes listeners recorders,
      b.receive o n = { b with log, probes, listeners, recorders } := by
  obtain ⟨probes, hpass, -⟩ := b.pass_eq o.stages n
  rw [receive, hpass]
  cases Stage.through o.stages n with
  | none => exact ⟨_, _, _, _, rfl⟩
  | some m =>
    obtain ⟨listeners, recorders, htake⟩ :=
      take_eq { b with log := b.log ++ (Stage.marks o.stages n).toArray, probes } o.sink m
    exact ⟨_, _, _, _, htake⟩

/-- No probe is rung but by a stage. -/
theorem probes_receive (b : Bench α σ) (o : Observer α) (n : Signal α)
    (h : ∀ stage ∈ o.stages, stage.rings = false) : (b.receive o n).probes = b.probes := by
  obtain ⟨probes, hpass, hsame⟩ := b.pass_eq o.stages n
  rw [receive, hpass]
  cases Stage.through o.stages n with
  | none => exact hsame h
  | some m =>
    obtain ⟨listeners, recorders, htake⟩ :=
      take_eq { b with log := b.log ++ (Stage.marks o.stages n).toArray, probes } o.sink m
    exact (congrArg Bench.probes htake).trans (hsame h)

/-- A recorder takes in what the stages leave, and only the one the observer serves does. -/
theorem get?_receive (b : Bench α σ) (o : Observer α) (n : Signal α) (r : RecorderRef) :
    (b.receive o n).recorders.get? r = (b.recorders.get? r).map fun row =>
      row.takeAll (b.now row.clock) (o.told r n).toList := by
  obtain ⟨probes, hpass, -⟩ := b.pass_eq o.stages n
  rw [receive, hpass, Observer.told]
  cases Stage.through o.stages n with
  | none => simp [Recorder.takeAll]
  | some m =>
    refine (get?_take { b with log := b.log ++ (Stage.marks o.stages n).toArray, probes } o.sink m
      r).trans ?_
    split <;> rfl

end Bench

/-- A notification that is handed to an observer, and the bench on which that is done. -/
structure Push (α σ : Type) where
  bench : Bench α σ
  observer : Observer α
  notification : Signal α

namespace Push

/-- What is left of the notification behind the stages of the observer. -/
def left (x : Push α σ) : Option (Signal α) := Stage.through x.observer.stages x.notification

/-- What the log tells of it: what the stages note, and then what the sink shows. -/
def tidings (x : Push α σ) : List (Entry α) :=
  Stage.marks x.observer.stages x.notification ++ x.left.elim [] (x.bench.shown x.observer.sink)

/-- What comes of it for a recorder that goes by a clock. -/
def arrival? (x : Push α σ) (r : RecorderRef) (c : ClockRef) : Option (Timed (Signal α)) :=
  (x.observer.told r x.notification).map (⟨x.bench.now c, ·⟩)

end Push

/-- The log gets what there is to tell of a notification, and nothing else is told. -/
theorem Bench.tidings_receive (b : Bench α σ) (o : Observer α) (n : Signal α) :
    (b.receive o n).tidings = b.tidings ++ Push.tidings ⟨b, o, n⟩ := by
  have hmarks : (Stage.marks o.stages n).filter (·.isHeard) = Stage.marks o.stages n :=
    List.filter_eq_self.mpr fun _ => Stage.isHeard_of_mem_marks
  have hshown : ∀ b' m, (b.shown b' m).filter (·.isHeard) = b.shown b' m := by
    intro k m
    cases k with
    | recorder r => rfl
    | listener l =>
      rw [shown]
      cases b.listeners.get? l <;> rfl
  obtain ⟨probes, hpass, -⟩ := b.pass_eq o.stages n
  rw [receive, hpass, Push.tidings, Push.left]
  cases Stage.through o.stages n with
  | none => simp [Bench.tidings, hmarks]
  | some m =>
    obtain ⟨listeners, recorders, htake⟩ :=
      take_eq { b with log := b.log ++ (Stage.marks o.stages n).toArray, probes } o.sink m
    change (take _ o.sink m).tidings = _
    rw [htake]
    have hsame :
        shown { b with log := b.log ++ (Stage.marks o.stages n).toArray, probes } o.sink m =
          b.shown o.sink m := by
      cases o.sink <;> rfl
    simp [Bench.tidings, hmarks, hshown, hsame]

namespace Engine

open Bench

variable {E : Engine α σ}

theorem sink_eq (E : Engine α σ) (k : Sink) (n : Signal α) (b : Bench α σ) :
    E.sink k n b = Run.each E.fire (b.called k) (b.take k n) := by
  cases k with
  | recorder r => rfl
  | listener l =>
    rw [sink, tell, Run.read_bind, called, take]
    cases hrow : b.listeners.get? l with
    | none => rfl
    | some row =>
      rw [Option.map_some, Option.getD_some, Run.each_map]
      rfl

/-- To hand a notification to an observer is one change of the bench, and then the callbacks that it
brings about. -/
theorem notify_eq (E : Engine α σ) (o : Observer α) (n : Signal α) (b : Bench α σ) :
    E.notify o n b = Run.each E.fire (b.echoes o n) (b.receive o n) := by
  obtain ⟨probes, hpass, -⟩ := b.pass_eq o.stages n
  rw [notify, Run.change_bind, receive, echoes, hpass]
  cases Stage.through o.stages n with
  | none => rfl
  | some m => exact sink_eq E o.sink m _

end Engine

end Marble
