import Marble.Proofs.Drive
import Marble.Proofs.Recording

/-! The actions of a watch in turn: each does its part, and with the clock to itself every drive
comes to its end. -/
namespace Marble

variable {α σ ρ : Type} {E : Engine α σ} {b b' b'' : Bench α σ} {a : Action α σ}
  {limit target : VirtualTime}

namespace Watch

variable {w : Watch} {row row' row'' : Recorder α} {clock clock' clock'' : Clock (Action α σ)}

/-- A watch is intact, and the queue of its clock is in order. -/
structure Kept (w : Watch) (b : Bench α σ) (row : Recorder α) (clock : Clock (Action α σ)) : Prop
    extends w.Intact b row where
  queue : b.clocks.get? w.clock = some clock
  ordered : clock.Ordered

/-- The first action of the queue starts, and it is one of the watch. -/
theorem turn_own (h : w.Kept b row clock) (hn : b.next? w.clock limit = some (a, b'))
    (ho : w.Owns a) :
    ∃ p b'' row' clock', clock.queue = p :: clock'.queue ∧ p.due ≤ limit ∧ a = p.action ∧
      E.perform a b' = (.done (), b'') ∧ w.Kept b'' row' clock' ∧ b''.scopes = b.scopes ∧
      b''.stack = b.stack ∧
      (row'.state = .listening → row.state = .listening ∧ w.stops a = false) ∧
      ∀ rest, row'.outlook (w.arrivals rest) = row.outlook (w.arrivals (p :: rest)) := by
  obtain ⟨p, clock', hnext, rfl, rfl⟩ := Bench.next?_eq_some h.queue hn
  have hrow : ({ b with clocks := b.clocks.modify w.clock fun _ => clock' } : Bench α σ).clocks.get?
      w.clock = some clock' := by simp [Table.get?_modify, h.queue]
  have hnow := h.ordered.now_next? hnext
  obtain ⟨b'', row', hrun, hint, hsame, hstop, hout⟩ :=
    perform_own (E := E) (h.toIntact.congr rfl rfl) ho
      (b := ({ b with clocks := b.clocks.modify w.clock fun _ => clock' } : Bench α σ).note
        (.report (.dispatching w.clock p.due p.sequence)))
      (by simpa [Bench.now, Bench.note, hrow] using hnow)
  obtain ⟨rest, hq, hle, hc'⟩ := Clock.next?_eq_some hnext
  refine ⟨p, b'', row', clock', by rw [hq, hc'], hle, rfl, hrun, ⟨hint, ?_, h.ordered.next? hnext⟩,
    hsame.scopes, hsame.stack, hstop, hout⟩
  rw [hsame.clocks]
  exact hrow

/-- With nothing else in the queue, a drain comes to its end, and the recorder has taken in what was
to come by then. -/
theorem drain_own (limit : VirtualTime) {fuel : Nat} (h : w.Kept b row clock)
    (ho : ∀ p ∈ clock.queue, w.Owns p.action) (hfuel : clock.queue.length < fuel) :
    ∃ b' row' clock', E.drainWith w.clock limit fuel b = (.done (), b') ∧ w.Kept b' row' clock' ∧
      clock'.queue <:+ clock.queue ∧ b'.scopes = b.scopes ∧ b'.stack = b.stack ∧
      row'.outlook [] =
        row.outlook (w.arrivals (clock.queue.takeWhile fun p => decide (p.due ≤ limit))) := by
  induction fuel generalizing b row clock with
  | zero => omega
  | succ fuel ih =>
    cases hn : b.next? w.clock limit with
    | none =>
      refine ⟨b, row, clock, Engine.drainWith_idle hn, h, List.suffix_rfl, rfl, rfl, ?_⟩
      rcases Clock.next?_eq_none (Bench.next?_eq_none h.queue hn) with hq | ⟨p, rest, hq, hlt⟩
      · simp [hq, arrivals]
      · simp [hq, hlt, arrivals]
    | some next =>
      obtain ⟨a, b₁⟩ := next
      obtain ⟨p, clock₁, hnext, rfl, -⟩ := Bench.next?_eq_some h.queue hn
      obtain ⟨rest, hq, -⟩ := Clock.next?_eq_some hnext
      obtain ⟨p', b₂, row₂, clock₂, hq₂, hle, -, hrun, hk, hscopes, hstack, -, hout⟩ :=
        turn_own (E := E) h hn (ho p (by simp [hq]))
      have hlen : clock₂.queue.length < fuel := by
        rw [hq₂, List.length_cons] at hfuel
        omega
      obtain ⟨b₃, row₃, clock₃, hdrain, hk₃, hsuf, hscopes₃, hstack₃, hout₃⟩ :=
        ih hk (fun q hq' => ho q (by simp [hq₂, hq'])) hlen
      refine ⟨b₃, row₃, clock₃, ?_, hk₃, ?_, hscopes₃.trans hscopes, hstack₃.trans hstack, ?_⟩
      · rw [Engine.drainWith_turn hn, Run.bind_done hrun]
        exact hdrain
      · rw [hq₂]
        exact hsuf.trans (List.suffix_cons _ _)
      · rw [hout₃, hout, hq₂, List.takeWhile_cons_of_pos (by simpa using hle)]

/-- A watch has its clock to itself, and there is fuel for all that is queued. -/
def Solo (w : Watch) (E : Engine α σ) (b : Bench α σ) : Prop :=
  ∃ row k, w.Kept b row k ∧ (∀ p ∈ k.queue, w.Owns p.action) ∧ k.queue.length < E.fuel

theorem drain_solo (h : w.Solo E b) (limit : VirtualTime) :
    ∃ b', E.drain w.clock limit b = (.done (), b') ∧ w.Solo E b' ∧ b'.scopes = b.scopes ∧
      b'.stack = b.stack := by
  obtain ⟨row, k, hk, hown, hfuel⟩ := h
  obtain ⟨b', row', k', hdrain, hk', hsuffix, hscopes, hstack, -⟩ :=
    drain_own (E := E) limit hk hown hfuel
  exact ⟨b', hdrain, ⟨row', k', hk', fun p hp => hown p (hsuffix.subset hp),
    lt_of_le_of_lt hsuffix.length_le hfuel⟩, hscopes, hstack⟩

theorem advanceTo_solo (h : w.Solo E b) (target : VirtualTime) :
    ∃ b', E.advanceTo w.clock target b = (.done (), b') ∧ w.Solo E b' ∧ b'.scopes = b.scopes ∧
      b'.stack = b.stack := by
  obtain ⟨b₁, hdrain, ⟨row, k, hk, hown, hfuel⟩, hscopes, hstack⟩ := drain_solo h target
  have hnext := Bench.next?_eq_none hk.queue (Engine.next?_of_drainWith hdrain)
  refine ⟨b₁.park w.clock target, ?_, ⟨row, k.park target, ⟨hk.toIntact.congr rfl rfl, ?_,
    hk.ordered.park hnext⟩, hown, hfuel⟩, hscopes, hstack⟩
  · rw [Engine.advanceTo, Run.bind_done hdrain]
    rfl
  · simp [Bench.park, Table.get?_modify, hk.queue]

theorem drive_solo (h : w.Solo E b) (d : Drive) :
    ∃ b', E.drive w.clock d b = (.done (), b') ∧ w.Solo E b' ∧ b'.scopes = b.scopes ∧
      b'.stack = b.stack := by
  cases d with
  | advanceTo target => exact advanceTo_solo h target
  | advanceBy delay => exact advanceTo_solo h (b.now w.clock + delay)
  | runUntilIdle => exact drain_solo h .never

theorem drives_solo (h : w.Solo E b) (drives : List Drive) :
    ∃ b', Run.each (E.drive w.clock) drives b = (.done (), b') ∧ w.Solo E b' ∧
      b'.scopes = b.scopes ∧ b'.stack = b.stack := by
  induction drives generalizing b with
  | nil => exact ⟨b, rfl, h, rfl, rfl⟩
  | cons d rest ih =>
    obtain ⟨b₁, hd, h₁, hscopes, hstack⟩ := drive_solo h d
    obtain ⟨b₂, hrest, h₂, hscopes₂, hstack₂⟩ := ih h₁
    refine ⟨b₂, ?_, h₂, hscopes₂.trans hscopes, hstack₂.trans hstack⟩
    rw [Run.each, Run.bind_done hd]
    exact hrest

end Watch

end Marble
