import Marble.Proofs.Leases
import Marble.Proofs.Multicast

/-! What the expectations of a scope hold, step by step, and that all of it is released when the
scope ends, each subscription at the time its own expectation stops to look. -/
namespace Marble.Scenario

open Bench

variable {α : Type} [Shown α] {b b' : Bench α (Callback α)} {s : ScopeRef} {leases : List Lease}

/-- What can happen on a bench, as a whole or on the way: someone carries out a command or calls a
callback, an action starts, and is carried out, someone ends a subscription that he has got hold of,
or something is changed that has nothing to do with the end of a subscription. -/
inductive Step : Bench α (Callback α) → Bench α (Callback α) → Prop
  | command (fuel : Nat) (c : Command α) (b : Bench α (Callback α)) :
    Step b (perform (Callback.engine fuel) c b).2
  | callback (fuel : Nat) (f : Callback α) (b : Bench α (Callback α)) :
    Step b ((Callback.engine fuel).call f b).2
  | turn {b b' : Bench α (Callback α)} {c : ClockRef} {limit : VirtualTime}
    {a : Action α (Callback α)} (fuel : Nat) (h : b.next? c limit = some (a, b')) :
    Step b ((Callback.engine (fuel + 1)).perform a b').2
  | start {b b' : Bench α (Callback α)} {c : ClockRef} {limit : VirtualTime}
    {a : Action α (Callback α)} (h : b.next? c limit = some (a, b')) (ha : a.released? = none) :
    Step b b'
  | use {b b' : Bench α (Callback α)} {sub : SubscriptionRef} (hsub : b.AtLarge sub)
    (hu : Uses sub b b') : Step b b'
  | mild {b b' : Bench α (Callback α)} (h : Mild b b') : Step b b'
  | aside {b b' : Bench α (Callback α)} (h : Change b b') (hclock : ∀ c, b'.clock c = b.clock c)
    (hheld : ∀ r, b'.held r = b.held r) (hspares : Spares b b') : Step b b'

/-- A relation that clients keep to is kept to in every step, if it is when an action starts that
releases nothing. -/
theorem Step.keeps (R : Bench α (Callback α) → Bench α (Callback α) → Prop) [Grants R]
    [∀ fuel, (Callback.engine fuel).Drives R]
    (hstart : ∀ {b b' : Bench α (Callback α)} {c : ClockRef} {limit : VirtualTime}
      {a : Action α (Callback α)}, b.next? c limit = some (a, b') → a.released? = none → R b b')
    (h : Step b b') : R b b' := by
  cases h with
  | command fuel c => exact lawful_perform (Callback.permits_engine fuel) c b
  | callback fuel f => exact Callback.permits_engine fuel f b
  | turn fuel hn =>
    exact Engine.Drives.turn (Callback.permits_engine (fuel + 1)) (Nat.succ_pos fuel) hn
  | start hn ha => exact hstart hn ha
  | use hsub hu => exact Heeds.use hsub (refl_of R b) hu
  | mild h => exact Heeds.mild h
  | aside h hclock hheld hspares => exact Grants.change h hclock hheld hspares

theorem Step.reaches (h : Step b b') : Reaches b b' :=
  h.keeps Reaches fun hn _ => (Change.plain (.start hn)).reaches

theorem Step.innocent (h : Step b b') (hb : b.Innocent) : b'.Innocent :=
  h.keeps Acquitting (fun hn _ hb => hb.started hn) hb

theorem Step.secluding (h : Step b b') (sub : SubscriptionRef) : Secluding sub b b' :=
  h.keeps (Secluding sub) fun hn ha =>
    secluding_aside (.plain (.start hn)) (overlooks_next? (by simp [ha]) hn)

/-- Any number of steps have been taken, and these leases have meanwhile been taken out, the last
one first, by expectations of sources on the clock of a scope. -/
inductive Leased (s : ScopeRef) : List Lease → Bench α (Callback α) → Prop
  | fresh : Leased s [] fresh
  | step {leases : List Lease} {b b' : Bench α (Callback α)} (h : Leased s leases b)
    (hstep : Step b b') : Leased s leases b'
  | expect {leases : List Lease} {b b' : Bench α (Callback α)} {scope : Scope α (Callback α)}
    {src : SourceRef} {source : Source α} (fuel : Nat) (h : Leased s leases b)
    (hs : b.accepting s = .ok scope) (hsource : b.sources.get? src = some source)
    (hclock : source.clock = scope.clock) (stages : List (Stage α))
    (d : Diagram α SequenceError (Effect (Callback α))) (compare : Compare α)
    (hdone : (Callback.engine fuel).expect s ⟨.source src, stages⟩ d compare b =
      (.done (.ok ()), b')) :
    Leased s (.taken b scope.clock scope.options src source d :: leases) b'

omit [Shown α] in
theorem innocent_fresh : (fresh : Bench α (Callback α)).Innocent where
  lived := lived_fresh
  unknown _ _ := ⟨by simp [fresh, addClock], by simp [fresh, addClock, held, Table.get?]⟩
  releases _ _ c := by
    rw [releases, queued, fresh_clock]
    rfl

theorem Leased.innocent (h : Leased s leases b) : b.Innocent := by
  induction h with
  | fresh => exact innocent_fresh
  | step _ hstep ih => exact hstep.innocent ih
  | @expect _ b₁ b₂ _ _ _ fuel _ _ _ _ stages d compare hdone ih =>
    have hkept : Acquitting b₁ b₂ :=
      (Engine.respects_expect (Callback.permits_engine fuel) s _ d compare).of_eq hdone
    exact hkept ih

/-- Each lease that has been taken out for a scope serves the end of it, however many others
follow. -/
theorem Leased.serves (h : Leased s leases b) : ∀ x ∈ leases, x.Serves s b := by
  induction h with
  | fresh => exact fun _ hx => nomatch hx
  | step _ hstep ih => exact fun x hx => (ih x hx).goes hstep.reaches (hstep.secluding x.sub)
  | @expect leases b₁ b₂ scope src source fuel h hs hsource hclock stages d compare hdone ih =>
    have hkept : ∀ {R : Bench α (Callback α) → Bench α (Callback α) → Prop} [Grants R]
        [∀ fuel, (Callback.engine fuel).Drives R], R b₁ b₂ := by
      intro R _ _
      exact (Engine.respects_expect (Callback.permits_engine fuel) s _ d compare).of_eq hdone
    rintro x (_ | ⟨_, hx⟩)
    · obtain ⟨b', hexpect, -, hserves⟩ :=
        Lease.runs_expect (E := Callback.engine fuel) h.innocent hs hsource hclock
          stages d compare
      obtain rfl : b' = b₂ := congrArg Prod.snd (hexpect.symm.trans hdone)
      exact hserves
    · exact (ih x hx).goes hkept hkept

/-- What holds of the subscriptions of expectations under an engine. -/
structure ExpectationsRelease (E : Engine α (Callback α)) : Prop where
  /-- An expectation of a source opens a subscription, with a new entry in the log of the source. -/
  opens {leases : List Lease} {b : Bench α (Callback α)} {s : ScopeRef}
    {scope : Scope α (Callback α)} {src : SourceRef} {source : Source α} (h : Leased s leases b)
    (hs : b.accepting s = .ok scope) (hsource : b.sources.get? src = some source)
    (hclock : source.clock = scope.clock) (stages : List (Stage α))
    (d : Diagram α SequenceError (Effect (Callback α))) (compare : Compare α) :
    ∃ b', E.expect s ⟨.source src, stages⟩ d compare b = (.done (.ok ()), b') ∧
      b'.isActive b.subscriptions.next ∧
      b'.leaves? b.subscriptions.next = some (src, source.log.length) ∧
      b'.record? src source.log.length = some ⟨b.now scope.clock, none⟩
  /-- Whatever happens, the entry is open as long as the subscription is active, and once it is not,
  the entry has been closed just when the expectation was to stop to look. -/
  meanwhile {leases : List Lease} {b : Bench α (Callback α)} {s : ScopeRef}
    (h : Leased s leases b) :
    ∀ x ∈ leases, b.record? x.source x.entry =
      some ⟨x.opened, if b.isActive x.sub then none else some x.due⟩
  /-- When the end of the scope returns, whatever it returns, none of these subscriptions is
  active. -/
  ends {leases : List Lease} {b b' : Bench α (Callback α)} {s : ScopeRef} {rest : List ScopeRef}
    {answer : Except Error Unit} (h : Leased s leases b) (hstack : b.stack = s :: rest)
    (hend : E.endScope s b = (.done answer, b')) :
    ∀ x ∈ leases, b'.isActive x.sub = false ∧
      b'.record? x.source x.entry = some ⟨x.opened, some x.due⟩
  /-- So it is when the scope is let go of. -/
  drops {leases : List Lease} {b b' : Bench α (Callback α)} {s : ScopeRef} {rest : List ScopeRef}
    (h : Leased s leases b) (hstack : b.stack = s :: rest)
    (hdrop : E.dropScope s b = (.done (), b')) :
    ∀ x ∈ leases, b'.isActive x.sub = false ∧
      b'.record? x.source x.entry = some ⟨x.opened, some x.due⟩

/-- Every expectation of a source releases its subscription at the time it stops to look: neither
the other expectations of the scope, nor the end of the sequence, nor anything that clients do
changes that. -/
theorem expectationsRelease (fuel : Nat) : ExpectationsRelease (Callback.engine (α := α) fuel) := by
  have hE := Callback.lawful_engine (α := α) fuel
  exact {
    opens := fun h hs hsource hclock stages d compare => by
      obtain ⟨b', hexpect, hruns, -⟩ := Lease.runs_expect (E := Callback.engine fuel) h.innocent hs
        hsource hclock stages d compare
      exact ⟨b', hexpect, hruns.active, hruns.leaves, hruns.opened⟩
    meanwhile := fun h x hx => by
      rcases (h.serves x hx).state with hruns | hexpired
      · rw [if_pos hruns.active]
        exact hruns.opened
      · rw [hexpired.ended]
        exact hexpired.closed
    ends := fun h hstack hend x hx => by
      have hexpired := (h.serves x hx).ended hE (Callback.permits_engine fuel) hstack hend
      exact ⟨hexpired.ended, hexpired.closed⟩
    drops := fun h hstack hdrop x hx => by
      have hexpired := (h.serves x hx).dropped hE (Callback.permits_engine fuel) hstack hdrop
      exact ⟨hexpired.ended, hexpired.closed⟩ }

/-- The source is over at 10. The first expectation looks on until 12, and the second, which fails,
until 42. -/
example : ((after (Callback.engine 5) [.beginScope "s" ⟨default, default, .clamp 2⟩,
      .source "x" .hot (.drawing (.scope "s") default ⟨"a|", [('a', .value 7)]⟩),
      .expect (some "s") ⟨.source "x", []⟩ ⟨"a|", [('a', .value 7)]⟩ .structural,
      .expect (some "s") ⟨.source "x", []⟩ ⟨"----a", [('a', .value 7)]⟩ .structural,
      .endScope "s"] (fresh : Bench Int64 (Callback Int64))).sources.get? ⟨0⟩).map (·.log) =
    some [⟨.zero, some (.clamp 12)⟩, ⟨.zero, some (.clamp 42)⟩] := by
  decide +kernel

end Marble.Scenario
