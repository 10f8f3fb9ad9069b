import Marble.Proofs.Independence
import Marble.Proofs.Passing

/-! The course of things: bases hand notifications to observers one at a time, and whatever their
callbacks set off is handed on before the rest. All that recorders take in and all that the log
tells of notifications comes of what has been handed on. -/
namespace Marble

variable {α σ : Type}

/-- A notification that is to be handed to an observer. That of a hot source goes to an observer
that is still attached under its log entry when its turn comes. -/
structure Handover (α : Type) where
  place : Option (SourceRef × Nat)
  observer : Observer α
  notification : Signal α

/-- What is to be handed to an observer whatever comes. -/
def Handover.plain (o : Observer α) (n : Signal α) : Handover α := ⟨none, o, n⟩

variable {b b' b₁ b₂ : Bench α σ} {todo todo' todo₁ todo₂ : List (Handover α)}
  {xs ys : List (Push α σ)}

namespace Bench

/-- What an action is to hand on when its time has come. -/
def handovers (b : Bench α σ) : Action α σ → List (Handover α)
  | .deliver sub o n => if b.isActive sub then [.plain o n] else []
  | .multicast s n => (b.attached s).map fun y => ⟨some (s, y.1), y.2, n⟩
  | .push o n => [.plain o n]
  | _ => []

/-- Whether a notification is still to be handed on. -/
def stands (b : Bench α σ) (x : Handover α) : Bool :=
  x.place.elim true fun y => b.isAttached y.1 y.2

/-- A change by the way: no notification leaves a trace, and no action starts. -/
structure Beside (b b' : Bench α σ) : Prop where
  unheard : Unheard b b'
  started : ∀ c, (b'.clock c).dispatched = (b.clock c).dispatched

end Bench

open Bench

/-- One step in the course of things, with what is still to be handed on and what is handed on in
it. An action that starts adds what it brings, and so does whoever hands something to an observer
without a clock. What breaks off takes with it what it has not got round to. -/
inductive Passage : List (Handover α) → Bench α σ → Option (Push α σ) → List (Handover α) →
    Bench α σ → Prop
  | beside (todo : List (Handover α)) {b b' : Bench α σ} (h : Beside b b') :
    Passage todo b none todo b'
  | start (todo : List (Handover α)) {b b' : Bench α σ} {c : ClockRef} {limit : VirtualTime}
    {a : Action α σ} (h : b.next? c limit = some (a, b')) :
    Passage todo b none (b'.handovers a ++ todo) b'
  | offer (todo : List (Handover α)) (b : Bench α σ) (o : Observer α) (items : List (Signal α)) :
    Passage todo b none (items.map (.plain o) ++ todo) b
  | hand (todo : List (Handover α)) {b : Bench α σ} {x : Handover α} (h : b.stands x = true) :
    Passage (x :: todo) b (some ⟨b, x.observer, x.notification⟩) todo
      (b.receive x.observer x.notification)
  | skip (todo : List (Handover α)) {b : Bench α σ} {x : Handover α} (h : b.stands x = false) :
    Passage (x :: todo) b none todo b
  | breakOff (given todo : List (Handover α)) (b : Bench α σ) :
    Passage (given ++ todo) b none todo b

/-- Any number of steps, with all that is handed on in them. -/
inductive Course : List (Handover α) → Bench α σ → List (Push α σ) → List (Handover α) →
    Bench α σ → Prop
  | refl (todo : List (Handover α)) (b : Bench α σ) : Course todo b [] todo b
  | tail {todo todo₁ todo₂ : List (Handover α)} {b b₁ b₂ : Bench α σ} {xs : List (Push α σ)}
    {x : Option (Push α σ)} (h : Course todo b xs todo₁ b₁) (hstep : Passage todo₁ b₁ x todo₂ b₂) :
    Course todo b (xs ++ x.toList) todo₂ b₂

theorem Passage.course {x : Option (Push α σ)} (h : Passage todo b x todo' b') :
    Course todo b x.toList todo' b' := .tail (.refl todo b) h

theorem Course.trans (h : Course todo b xs todo₁ b₁) (h' : Course todo₁ b₁ ys todo₂ b₂) :
    Course todo b (xs ++ ys) todo₂ b₂ := by
  induction h' with
  | refl => rwa [List.append_nil]
  | tail _ hstep ih =>
    rw [← List.append_assoc]
    exact .tail (ih h) hstep

/-- Whatever is still to be handed on, things take their course from one bench to another and come
back to it. -/
def Bench.Hears (b b' : Bench α σ) : Prop := ∀ todo, ∃ xs, Course todo b xs todo b'

namespace Bench

instance : IsPreorder (Bench α σ) Beside where
  refl b := ⟨refl_of Unheard b, fun _ => rfl⟩
  trans _ _ _ h h' :=
    ⟨trans_of Unheard h.unheard h'.unheard, fun c => (h'.started c).trans (h.started c)⟩

instance : IsPreorder (Bench α σ) Hears where
  refl b todo := ⟨[], .refl todo b⟩
  trans _ _ _ h h' todo := by
    obtain ⟨xs, hxs⟩ := h todo
    obtain ⟨ys, hys⟩ := h' todo
    exact ⟨xs ++ ys, hxs.trans hys⟩

theorem Beside.hears (h : Beside b b') : Hears b b' :=
  fun todo => ⟨[], (Passage.beside todo h).course⟩

theorem beside_schedule (b : Bench α σ) (c : ClockRef) (due : VirtualTime) (a : Action α σ) :
    Beside b (b.schedule c due a) :=
  ⟨unheard_of_eq rfl rfl, fun c' => (rests_schedule b c' c due a).dispatched⟩

theorem Mild.started (h : Mild b b') (c : ClockRef) :
    (b'.clock c).dispatched = (b.clock c).dispatched := by
  cases h with
  | aside _ hclock => rw [hclock]
  | schedule c' due => exact (beside_schedule b c' due _).started c
  | @park c' target =>
    rw [Bench.park, clock_modify]
    split <;> rfl
  | addSource temperature c' events =>
    exact (keeps_addSource (R := Rests c) b temperature c' events (rests_of_clock rfl)
      fun b₁ due _ => rests_schedule b₁ c c' due _).dispatched
  | attach s o =>
    exact (keeps_attach (R := Rests c) b s o (rests_of_clock rfl)
      (fun _ _ _ _ => rests_of_clock rfl)
      fun b₁ c' due _ => rests_schedule b₁ c c' due _).dispatched

theorem Uses.beside {s : SubscriptionRef} (h : Uses s b b') : Beside b b' := by
  cases h with
  | release c due r => exact beside_schedule b c due _
  | _ => exact ⟨unheard_of_eq rfl rfl, fun _ => rfl⟩

/-- A recorder that is handed something gets it straight. -/
theorem hears_record (b : Bench α σ) (r : RecorderRef) (n : Signal α) : Hears b (b.record r n) := by
  intro todo
  have hoffer : Course todo b [] (.plain ⟨[], .recorder r⟩ n :: todo) b :=
    (Passage.offer todo b ⟨[], .recorder r⟩ [n]).course
  exact ⟨_, hoffer.tail (.hand todo rfl)⟩

instance : Excuses (Hears : Bench α σ → Bench α σ → Prop) where
  mild h hunheard := Beside.hears ⟨hunheard, h.started⟩
  use _ h hu := trans_of Hears h hu.beside.hears
  record := hears_record
  change _ hclock _ _ hunheard := Beside.hears ⟨hunheard, fun c => by rw [hclock]⟩

end Bench

namespace Engine

variable {E : Engine α σ}

/-- Hands a notification on, if it still is to be. -/
def handOver (E : Engine α σ) (x : Handover α) : Run α σ Unit := do
  if ← Run.read (·.stands x) then E.notify x.observer x.notification else return ()

/-- An action whose time has come hands on what it brings, in turn. -/
theorem perform_eq_handOver (E : Engine α σ) {a : Action α σ} (ha : a.hands) (b : Bench α σ) :
    E.perform a b = Run.each E.handOver (b.handovers a) b := by
  cases a with
  | deliver sub o n =>
    rw [perform_delivery, handovers]
    split
    · rw [Run.each_singleton]
      rfl
    · rfl
  | multicast s n =>
    rw [handovers, Run.each_map]
    rfl
  | push o n =>
    rw [handovers, Run.each_singleton]
    rfl
  | _ => cases ha

/-- Notifications are handed on in turn, each once, as far as they are still to be. Whatever breaks
off while one is handed on ends it all. -/
inductive Handing (E : Engine α σ) : List (Handover α) → Bench α σ → List (Push α σ) →
    Outcome Unit × Bench α σ → Prop
  | done (b : Bench α σ) : Handing E [] b [] (.done (), b)
  | hand {x : Handover α} {rest : List (Handover α)} {b b' : Bench α σ} {xs : List (Push α σ)}
    {result : Outcome Unit × Bench α σ} (hx : b.stands x = true)
    (hrun : E.notify x.observer x.notification b = (.done (), b'))
    (h : Handing E rest b' xs result) :
    Handing E (x :: rest) b (⟨b, x.observer, x.notification⟩ :: xs) result
  | skip {x : Handover α} {rest : List (Handover α)} {b : Bench α σ} {xs : List (Push α σ)}
    {result : Outcome Unit × Bench α σ} (hx : b.stands x = false) (h : Handing E rest b xs result) :
    Handing E (x :: rest) b xs result
  | broken {x : Handover α} {rest : List (Handover α)} {b : Bench α σ} (hx : b.stands x = true)
    (hne : (E.notify x.observer x.notification b).1 ≠ .done ()) :
    Handing E (x :: rest) b [⟨b, x.observer, x.notification⟩] (E.notify x.observer x.notification b)

theorem handing_each (E : Engine α σ) (given : List (Handover α)) (b : Bench α σ) :
    ∃ xs, E.Handing given b xs (Run.each E.handOver given b) := by
  induction given generalizing b with
  | nil => exact ⟨[], .done b⟩
  | cons x rest ih =>
    rw [Run.each]
    cases hx : b.stands x with
    | false =>
      have hskip : E.handOver x b = (.done (), b) := by
        rw [handOver, Run.read_bind, hx]
        rfl
      obtain ⟨xs, hxs⟩ := ih b
      rw [Run.bind_done hskip]
      exact ⟨xs, .skip hx hxs⟩
    | true =>
      have hhand : E.handOver x b = E.notify x.observer x.notification b := by
        rw [handOver, Run.read_bind, hx]
        rfl
      by_cases hdone : (E.notify x.observer x.notification b).1 = .done ()
      · have hrun : E.notify x.observer x.notification b =
            (.done (), (E.notify x.observer x.notification b).2) := Prod.ext hdone rfl
        obtain ⟨xs, hxs⟩ := ih (E.notify x.observer x.notification b).2
        rw [Run.bind_done (hhand.trans hrun)]
        exact ⟨_, .hand hx hrun hxs⟩
      · rw [Run.bind_of_ne_done (by rw [hhand]; exact fun _ => hdone), hhand]
        exact ⟨_, .broken hx hdone⟩

/-- An action whose time has come hands on what it brings. -/
theorem handing_perform (E : Engine α σ) {a : Action α σ} (ha : a.hands) (b : Bench α σ) :
    ∃ xs, E.Handing (b.handovers a) b xs (E.perform a b) := by
  rw [perform_eq_handOver E ha]
  exact handing_each E (b.handovers a) b

theorem each_notify (E : Engine α σ) (o : Observer α) (items : List (Signal α)) :
    Run.each (E.notify o) items = Run.each E.handOver (items.map (.plain o)) := by
  rw [Run.each_map]
  rfl

/-- What a base announces is handed on as it comes. -/
theorem handing_items (E : Engine α σ) (o : Observer α) (items : List (Signal α)) (b : Bench α σ) :
    ∃ xs, E.Handing (items.map (.plain o)) b xs (Run.each (E.notify o) items b) := by
  rw [each_notify]
  exact handing_each E (items.map (.plain o)) b

/-- Nothing is handed on twice, nor out of turn, nor to anybody else. -/
theorem Handing.sublist {given : List (Handover α)} {result : Outcome Unit × Bench α σ}
    (h : E.Handing given b xs result) :
    (xs.map fun x => (x.observer, x.notification)).Sublist
      (given.map fun x => (x.observer, x.notification)) := by
  induction h with
  | done => exact .slnil
  | hand _ _ _ ih => exact ih.cons_cons _
  | skip _ _ ih => exact ih.cons _
  | broken => exact (List.nil_sublist _).cons_cons _

/-- What a base announces is handed on entirely, if nothing breaks off. -/
theorem Handing.plain {o : Observer α} {items : List (Signal α)}
    (h : E.Handing (items.map (.plain o)) b xs (.done (), b')) :
    xs.map (fun x => (x.observer, x.notification)) = items.map fun n => (o, n) := by
  induction items generalizing b xs with
  | nil =>
    cases h
    rfl
  | cons n rest ih =>
    rw [List.map_cons] at h
    generalize hresult : (Outcome.done (), b') = result at h
    cases h with
    | hand _ _ h =>
      subst hresult
      rw [List.map_cons, ih h]
      rfl
    | skip hx => cases hx
    | broken _ hne => exact absurd (congrArg Prod.fst hresult).symm hne

/-- Handing on takes its course: an observer gets its notification at once, and then its callbacks
run with the rest still to come. -/
theorem Handing.course (hE : E.Respects Hears) {given : List (Handover α)}
    {result : Outcome Unit × Bench α σ} (h : E.Handing given b xs result)
    (todo : List (Handover α)) :
    ∃ ys, Course (given ++ todo) b ys todo result.2 ∧ xs.Sublist ys := by
  have hcalls : ∀ (x : Handover α) (b : Bench α σ) (todo : List (Handover α)),
      ∃ ys, Course todo (b.receive x.observer x.notification) ys todo
        (E.notify x.observer x.notification b).2 := by
    intro x b todo
    rw [notify_eq]
    exact Run.keeps_each (fun f _ => respects_fire hE f) _ todo
  induction h with
  | done b => exact ⟨[], .refl todo b, .slnil⟩
  | @hand x rest b _ _ _ hx hrun _ ih =>
    obtain ⟨ys, hys⟩ := hcalls x b (rest ++ todo)
    rw [hrun] at hys
    obtain ⟨zs, hzs, hsub⟩ := ih
    refine ⟨_, ((Passage.hand (rest ++ todo) hx).course.trans hys).trans hzs, ?_⟩
    exact (hsub.trans (List.sublist_append_right ys zs)).cons_cons _
  | @skip x rest b _ _ hx _ ih =>
    obtain ⟨ys, hys, hsub⟩ := ih
    exact ⟨_, (Passage.skip (rest ++ todo) hx).course.trans hys, hsub⟩
  | @broken x rest b hx _ =>
    obtain ⟨ys, hys⟩ := hcalls x b (rest ++ todo)
    refine ⟨_, ((Passage.hand (rest ++ todo) hx).course.trans hys).tail (.breakOff rest todo _), ?_⟩
    simp

instance : E.Feeds Hears where
  feed hE o items b todo := by
    obtain ⟨xs, hxs⟩ := handing_items E o items b
    obtain ⟨ys, hys, -⟩ := hxs.course hE todo
    exact ⟨_, (Passage.offer todo b o items).course.trans hys⟩

/-- An action that is carried out hands on all that it brings before anything else that is to be. -/
theorem course_perform (hE : E.Respects Hears) (a : Action α σ) (todo : List (Handover α))
    (b : Bench α σ) : ∃ xs, Course (b.handovers a ++ todo) b xs todo (E.perform a b).2 := by
  cases ha : a.hands with
  | true =>
    obtain ⟨xs, hxs⟩ := handing_perform E ha b
    obtain ⟨ys, hys, -⟩ := hxs.course hE todo
    exact ⟨ys, hys⟩
  | false =>
    have hnone : b.handovers a = [] := by
      cases a <;> first | rfl | cases ha
    rw [hnone]
    have herrand : Hears b (E.perform a b).2 := by
      refine respects_errand hE ha (fun _ _ _ _ _ h hu => trans_of Hears h hu.beside.hears) ?_ ?_
      · exact fun r _ _ b₁ s _ h _ =>
          trans_of Hears h (Beside.hears ⟨unheard_hold b₁ r (some s), fun _ => rfl⟩)
      · exact fun r _ b => Beside.hears ⟨unheard_hold b r none, fun _ => rfl⟩
    exact herrand todo

instance : E.Drives Hears where
  turn hE _ _ _ a _ b' hn todo := by
    obtain ⟨xs, hxs⟩ := course_perform hE a todo b'
    exact ⟨_, (Passage.start todo hn).course.trans hxs⟩
  prepare b c factory options := by
    refine keeps_prepared b c factory options ?_ fun b' due a _ =>
      (beside_schedule b' c due a).hears
    exact Beside.hears ⟨unheard_addRecorder b c, fun _ => rfl⟩

end Engine

/-! ### What comes of it -/

theorem Bench.unheard_next? {c : ClockRef} {limit : VirtualTime} {a : Action α σ}
    (h : b.next? c limit = some (a, b')) : Unheard b b' := by
  obtain ⟨clock, hc⟩ := exists_clock h
  obtain ⟨p, clock', -, -, rfl⟩ := next?_eq_some hc h
  have hmoved : Unheard b { b with clocks := b.clocks.modify c fun _ => clock' } :=
    unheard_of_eq rfl rfl
  exact trans_of Unheard hmoved (unheard_note _ rfl)

/-- A step in which nothing is handed on is not heard. -/
theorem Passage.unheard (h : Passage todo b none todo' b') : Unheard b b' := by
  cases h with
  | beside _ h => exact h.unheard
  | start _ h => exact unheard_next? h
  | offer => exact refl_of Unheard b
  | skip => exact refl_of Unheard b
  | breakOff => exact refl_of Unheard b

theorem Passage.received {x : Push α σ} (h : Passage todo b (some x) todo' b') :
    x.bench = b ∧ b' = b.receive x.observer x.notification := by
  cases h with
  | hand _ h => exact ⟨rfl, rfl⟩

/-- The log tells of all that is handed on, in the order it is, and of nothing else. -/
theorem Course.tidings (h : Course todo b xs todo' b') :
    b'.tidings = b.tidings ++ xs.flatMap Push.tidings := by
  induction h with
  | refl => simp
  | @tail _ _ _ b₁ b₂ xs x _ hstep ih =>
    have htold : b₂.tidings = b₁.tidings ++ x.toList.flatMap Push.tidings := by
      cases x with
      | none => simpa using hstep.unheard.tidings
      | some x =>
        obtain ⟨rfl, rfl⟩ := hstep.received
        simpa using tidings_receive x.bench x.observer x.notification
    rw [htold, ih, List.flatMap_append, List.append_assoc]

/-- What becomes of a recorder as notifications come to it: it takes them all in as far as it goes
on listening, unless it is told to stop on the way. -/
structure Recorder.Takes (row row' : Recorder α) (coming : List (Timed (Signal α))) : Prop where
  clock : row'.clock = row.clock
  kept : row.state ≠ .listening → row'.state = row.state
  outlook : (∀ later, row'.outlook later = row.outlook (coming ++ later)) ∨
    row.state = .listening ∧ row'.state = .detached ∧
      ∃ taken, taken <+: coming ∧ ∀ later, row'.outlook later = row.outlook taken

namespace Recorder

variable {row row' row'' : Recorder α} {coming coming' : List (Timed (Signal α))}

theorem Takes.trans (h : Takes row row' coming) (h' : Takes row' row'' coming') :
    Takes row row'' (coming ++ coming') where
  clock := h'.clock.trans h.clock
  kept hstate := by
    have hkept := h.kept hstate
    exact (h'.kept (by rwa [hkept])).trans hkept
  outlook := by
    rcases h.outlook with hall | ⟨hlistening, hdetached, taken, htaken, hsome⟩
    · rcases h'.outlook with hall' | ⟨hlistening', hdetached', taken, htaken, hsome⟩
      · exact Or.inl fun later => by rw [hall', hall, List.append_assoc]
      · have hlistening : row.state = .listening := by
          by_contra hstate
          exact hstate ((h.kept hstate).symm.trans hlistening')
        refine Or.inr ⟨hlistening, hdetached', coming ++ taken, ?_, fun later => ?_⟩
        · exact (List.prefix_append_right_inj coming).mpr htaken
        · rw [hsome, hall]
    · have hstopped : row'.state ≠ .listening := by simp [hdetached]
      have hkept := h'.kept hstopped
      refine Or.inr ⟨hlistening, hkept.trans hdetached, taken, ?_, fun later => ?_⟩
      · exact htaken.trans (List.prefix_append coming coming')
      · rcases h'.outlook with hall' | ⟨hlistening', -⟩
        · rw [hall', hsome]
        · exact absurd hlistening' hstopped

theorem takes_takeAll (row : Recorder α) (now : VirtualTime) (ms : List (Signal α)) :
    Takes row (row.takeAll now ms) (ms.map (⟨now, ·⟩)) where
  clock := row.takeAll_clock now ms
  kept hstate := by
    induction ms with
    | nil => rfl
    | cons m rest ih =>
      have hrecord : row.record now m = row := by rw [record, if_neg hstate]
      rw [takeAll, List.foldl_cons, hrecord]
      exact ih
  outlook := Or.inl (row.outlook_takeAll now ms)

/-- What a recorder has taken in of what has come to it: all of it that it should, or a part if it
has been told to stop meanwhile. -/
theorem Takes.messages (h : Takes row row' coming) :
    ∃ taken, taken <+: coming ∧ row'.messages.toList = row.outlook taken ∧
      (taken = coming ∨ row.state = .listening ∧ row'.state = .detached) := by
  rcases h.outlook with hall | ⟨hlistening, hdetached, taken, htaken, hsome⟩
  · refine ⟨coming, List.prefix_rfl, ?_, Or.inl rfl⟩
    rw [← outlook_nil, hall, List.append_nil]
  · refine ⟨taken, htaken, ?_, Or.inr ⟨hlistening, hdetached⟩⟩
    rw [← outlook_nil, hsome]

end Recorder

theorem Bench.Unheard.takes (h : Unheard b b') {r : RecorderRef} {row : Recorder α}
    (hrow : b.recorders.get? r = some row) :
    ∃ row', b'.recorders.get? r = some row' ∧ row.Takes row' [] := by
  obtain ⟨row', hrow', hclock, hmessages, hstate⟩ := h.recorder r row hrow
  refine ⟨row', hrow', hclock, fun hstopped => ?_, ?_⟩
  · rcases hstate with hstate | ⟨hlistening, -⟩
    · exact hstate
    · exact absurd hlistening hstopped
  · rcases hstate with hstate | ⟨hlistening, hdetached⟩
    · exact Or.inl fun later => by simp only [Recorder.outlook, hstate, hmessages, List.nil_append]
    · refine Or.inr ⟨hlistening, hdetached, [], List.prefix_rfl, fun later => ?_⟩
      rw [Recorder.outlook_of_ne (by simp [hdetached]), hmessages, Recorder.outlook_nil]

/-- What comes to a recorder in the course of things. -/
def arrivals (r : RecorderRef) (c : ClockRef) (xs : List (Push α σ)) : List (Timed (Signal α)) :=
  xs.filterMap (·.arrival? r c)

/-- A recorder takes in what comes to it in the course of things, and nothing else. -/
theorem Course.takes (h : Course todo b xs todo' b') {r : RecorderRef} {row : Recorder α}
    (hrow : b.recorders.get? r = some row) :
    ∃ row', b'.recorders.get? r = some row' ∧ row.Takes row' (arrivals r row.clock xs) := by
  induction h with
  | refl => exact ⟨row, hrow, rfl, fun _ => rfl, Or.inl fun _ => rfl⟩
  | @tail _ _ _ b₁ b₂ xs x _ hstep ih =>
    obtain ⟨row₁, hrow₁, htakes⟩ := ih hrow
    have hlast : ∃ row₂, b₂.recorders.get? r = some row₂ ∧
        row₁.Takes row₂ (arrivals r row.clock x.toList) := by
      cases x with
      | none => exact hstep.unheard.takes hrow₁
      | some x =>
        obtain ⟨rfl, rfl⟩ := hstep.received
        refine ⟨_, (get?_receive _ _ _ r).trans (congrArg _ hrow₁), ?_⟩
        have harrives : arrivals r row.clock [x] =
            (x.observer.told r x.notification).toList.map (⟨x.bench.now row₁.clock, ·⟩) := by
          rw [htakes.clock, arrivals, List.filterMap_cons, Push.arrival?]
          cases x.observer.told r x.notification <;> rfl
        rw [Option.toList_some, harrives]
        exact row₁.takes_takeAll _ _
    obtain ⟨row₂, hrow₂, htakes₂⟩ := hlast
    refine ⟨row₂, hrow₂, ?_⟩
    rw [arrivals, List.filterMap_append]
    exact htakes.trans htakes₂

/-- What is handed on in the course of things to the observers that serve a recorder, at the times
of a clock. -/
def handed (r : RecorderRef) (c : ClockRef) (xs : List (Push α σ)) : List (Timed (Signal α)) :=
  (xs.filter fun x => decide (x.observer.sink = .recorder r)).map
    fun x => ⟨x.bench.now c, x.notification⟩

/-- What comes to a recorder that is served through one pipeline is what is handed on for it, as the
pipeline leaves it. -/
theorem arrivals_eq_through {r : RecorderRef} {c : ClockRef} {stages : List (Stage α)}
    (h : ∀ x ∈ xs, x.observer.sink = .recorder r → x.observer.stages = stages) :
    arrivals r c xs = Timeline.through stages (handed r c xs) := by
  induction xs with
  | nil => rfl
  | cons x rest ih =>
    have hrest := ih fun y hy => h y (by simp [hy])
    have hfirst := h x (by simp)
    rw [arrivals] at hrest
    rw [arrivals, List.filterMap_cons, hrest, handed, handed, Push.arrival?, Observer.told]
    by_cases hsink : x.observer.sink = .recorder r
    · rw [if_pos hsink, hfirst hsink, List.filter_cons_of_pos (by simpa using hsink), List.map_cons,
        Timeline.through_cons]
      cases Stage.through stages x.notification <;> rfl
    · rw [if_neg hsink, List.filter_cons_of_neg (by simpa using hsink)]
      rfl

end Marble
