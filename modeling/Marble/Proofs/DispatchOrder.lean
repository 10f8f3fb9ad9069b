import Marble.Proofs.Errands

/-! Over the whole life of a clock, actions start in the order of their due times and numbers. -/
namespace Marble.Scenario

open Bench

variable {α : Type} [Shown α]

/-- What is told of the clocks of a bench under an engine. -/
structure ClockCalls (E : Engine α (Callback α)) : Prop where
  /-- All that scripts do with clocks, each part of them, each command and each callback that they
  set off, is to queue actions and to let those start that are due, whether or not something
  panics. -/
  comes (b : Bench α (Callback α)) : (∀ script, ∃ evs, Answered b evs (after E script b)) ∧
    (∀ script, ∃ evs, Answered b evs (runScript E script b).2) ∧
    (∀ command, ∃ evs, Answered b evs (perform E command b).2) ∧
    ∀ f, ∃ evs, Answered b evs (E.call f b).2
  /-- What is told of one part and of the next makes up what is told of both. -/
  together {b b₁ b₂ : Bench α (Callback α)}
    {evs evs' : List (ClockRef × ClockEvent (Action α (Callback α)))} (h : Answered b evs b₁)
    (h' : Answered b₁ evs' b₂) : Answered b (evs ++ evs') b₂
  /-- To schedule an action at an instant is to ask the clock that is named for that instant, now
  and once, and no other clock for anything; -/
  scheduleAt {b : Bench α (Callback α)} {c : ClockRef} {name : String}
    (hname : b.names.clocks.lookup name = some c) (hc : (b.clocks.get? c).isSome)
    (due : VirtualTime) (label : Json) (script : Script α) :
    Answered b [(c, .queued due (b.now c) (.invoke (.call (.action c label script))))]
      (perform E (.scheduleAt name due label script) b).2
  /-- to schedule it after a delay is to ask for the instant so much later than the clock reads; -/
  scheduleAfter {b : Bench α (Callback α)} {c : ClockRef} {name : String}
    (hname : b.names.clocks.lookup name = some c) (hc : (b.clocks.get? c).isSome)
    (delay : VirtualTime) (label : Json) (script : Script α) :
    Answered b [(c, .queued (b.now c + delay) (b.now c) (.invoke (.call (.action c label script))))]
      (perform E (.scheduleAfter name delay label script) b).2
  /-- and a probe is scheduled in the same way. -/
  scheduleProbe {b : Bench α (Callback α)} {c : ClockRef} {p : ProbeRef} {name probe : String}
    (hname : b.names.clocks.lookup name = some c) (hc : (b.clocks.get? c).isSome)
    (hprobe : b.names.probes.lookup probe = some p) (due : VirtualTime) :
    Answered b [(c, .queued due (b.now c) (.invoke (.stamp p)))]
      (perform E (.scheduleProbe probe name due) b).2
  /-- A drain that has come some way starts the first action of the queue next, and then carries it
  out. -/
  running {b b₁ b₂ : Bench α (Callback α)} {c : ClockRef} {limit : VirtualTime}
    {ran : List (Pending (Action α (Callback α)))} {a : Action α (Callback α)}
    (hruns : E.Runs c limit b ran b₁) (hnext : b₁.next? c limit = some (a, b₂)) :
    (∃ evs, Answered b evs b₁) ∧
      (∃ p rest, (b₁.clock c).queue = p :: rest ∧ p.action = a ∧
        Answered b₁ [(c, .started p.due p.sequence (b₂.now c) a)] b₂) ∧
      ∃ evs, Answered b₂ evs (E.perform a b₂).2

theorem clockCalls {E : Engine α (Callback α)} (hE : E.Lawful) : ClockCalls E := by
  constructor
  case comes =>
    intro b
    refine ⟨fun script => ?_, fun script => ?_, fun command => ?_, fun f => ?_⟩
    · exact (reaches_after hE script b).answered
    · exact Reaches.answered (respects_runScript (lawful_perform hE) script b)
    · exact Reaches.answered (lawful_perform hE command b)
    · exact Reaches.answered (hE f b)
  case together => exact fun h h' => h.trans h'
  case scheduleAt =>
    intro b c name hname hc due label script
    rw [perform_scheduleAt due label script hname]
    exact .one (.queued hc due _)
  case scheduleAfter =>
    intro b c name hname hc delay label script
    rw [perform_scheduleAfter delay label script hname]
    exact .one (.queued hc (b.now c + delay) _)
  case scheduleProbe =>
    intro b c p name probe hname hc hprobe due
    rw [perform, Attempt.bind_ok (find_eq hprobe), Task.clock, Attempt.bind_ok (find_eq hname)]
    exact .one (.queued hc due _)
  case running =>
    intro b b₁ b₂ c limit ran a hruns hnext
    obtain ⟨p, rest, hqueue, haction, hstart⟩ := Answers.start hnext
    have hran : Reaches b b₁ := hruns.respects hE
    have hdone : Reaches b₂ (E.perform a b₂).2 := Engine.respects_perform hE a b₂
    exact ⟨hran.answered, ⟨p, rest, hqueue, haction, .one hstart⟩, hdone.answered⟩

/-- What can be relied on of the order in which actions start under an engine. -/
structure DispatchOrder (E : Engine α (Callback α)) : Prop where
  calls : ClockCalls E
  /-- A clock that has been asked for nothing yet is as all clocks are on a fresh bench. -/
  beginning (c : ClockRef) : (fresh : Bench α (Callback α)).clock c = {}
  /-- Whatever is told of a clock from then on, its actions start in order; the clock goes through
  just what is told, and the log has just the starts that are told. -/
  ordered {b b' : Bench α (Callback α)} {c : ClockRef}
    {evs : List (ClockRef × ClockEvent (Action α (Callback α)))} (hc : b.clock c = {})
    (h : Answered b evs b') : Clock.InOrder (answersOf c evs) ∧
      Clock.Trace {} (answersOf c evs) (b'.clock c) ∧
      (answersOf c evs).filterMap ClockEvent.start? = dispatches c (b'.log.toList.drop b.log.size)
  /-- What is seen of a scenario shows the starts that are told of it. -/
  seen (script : Script α) (c : ClockRef)
    {evs : List (ClockRef × ClockEvent (Action α (Callback α)))}
    (h : Answered fresh evs (after E script fresh)) :
    (answersOf c evs).filterMap ClockEvent.start? =
      dispatches c ((observeAll E script fresh).flatMap (·.log))

/-- Whatever commands are carried out, from outside or from inside actions, actions that drive their
own clock included: the actions of a clock start in the order of due time and number, each at most
once, when the clock reads the due time they were given. The numbers count the calls that queue an
action, and what lies in the past at such a call is due at once. -/
theorem dispatch_order (fuel : Nat) : DispatchOrder (Callback.engine (α := α) fuel) := by
  have hE := Callback.lawful_engine (α := α) fuel
  constructor
  case calls => exact clockCalls hE
  case beginning => exact fresh_clock
  case ordered =>
    intro b b' c evs hc h
    have htrace := h.trace c
    rw [hc] at htrace
    exact ⟨htrace.inOrder, htrace, h.starts c⟩
  case seen =>
    intro script c evs h
    have hstarts := h.starts c
    rwa [← log_observeAll hE script fresh, ← Array.length_toList, List.drop_left] at hstarts

end Marble.Scenario
