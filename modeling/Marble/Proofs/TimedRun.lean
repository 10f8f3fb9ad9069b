import Marble.Element
import Marble.Proofs.Subscribe
import Marble.Scenario.Answer

/-! A timed run of a cold source, with its times in whatever order they come. -/
namespace Marble

variable {α σ : Type} {E : Engine α σ} {b b₁ : Bench α σ} {c : ClockRef} {r : RecorderRef}
  {factory : σ} {events : List (Timed (Signal α))} {k : Clock (Action α σ)} {row : Recorder α}
  {limit : VirtualTime}

theorem Timeline.le_of_mem_sorted_shift {β : Type} {offset : VirtualTime} {tl : List (Timed β)}
    {e : Timed β} (h : e ∈ sorted (shift offset tl)) : offset ≤ e.time := by
  obtain ⟨x, _, rfl⟩ := List.mem_map.mp ((List.mem_insertionSort _).mp h)
  exact VirtualTime.le_add _ _

namespace Engine

/-- Called on a bench with the names and sources of this one, a factory builds a cold source of some
events, and it touches no clock, recorder or subscription. -/
def BuildsCold (E : Engine α σ) (factory : σ) (c : ClockRef) (events : List (Timed (Signal α)))
    (b : Bench α σ) : Prop :=
  ∀ b₁ : Bench α σ, b₁.names = b.names → b₁.sources = b.sources →
    ∃ outcome b₂ src source, E.call factory b₁ = (.done outcome, b₂) ∧ b₂.clocks = b₁.clocks ∧
      b₂.recorders = b₁.recorders ∧ b₂.subscriptions = b₁.subscriptions ∧
      E.sequence factory b₂ = ⟨.source src, []⟩ ∧ b₂.sources.get? src = some source ∧
      source.temperature = .cold ∧ source.clock = c ∧ source.events = events

theorem perform_openRun (hf : E.BuildsCold factory c events b) (hnames : b₁.names = b.names)
    (hsources : b₁.sources = b.sources) (hk : b₁.clocks.get? c = some k)
    (hr : b₁.recorders.get? r = some row) (hclock : row.clock = c) :
    ∃ b₂, E.perform (.openRun r factory) b₁ = (.done (), b₂) ∧
      (⟨c, r, b₁.subscriptions.next⟩ : Watch).Intact b₂
        { row with held := some b₁.subscriptions.next } ∧
      b₂.clocks.get? c =
        some (k.deliverAll b₁.subscriptions.next ⟨[], .recorder r⟩ k.now events) := by
  obtain ⟨outcome, b₂, src, source, hcall, hcl, hrec, hsub, hseq, hsrc, hcold, rfl, rfl⟩ :=
    hf b₁ hnames hsources
  have hcall' : (E.call factory).result b₁ = (.done outcome, b₂) := hcall
  have hfire : E.fire factory b₁ = (.done (), b₂) := by
    rw [fire, Run.bind_done hcall']
    rfl
  obtain ⟨b₃, hsubscribe, hk₃, hsub₃, hrec₃, -, -⟩ :=
    subscribe_cold (E := E) hsrc hcold (by rw [hcl]; exact hk) [] (.recorder r)
  rw [hsub] at hsubscribe hk₃ hsub₃
  refine ⟨{ b₃ with recorders := b₃.recorders.modify r fun row =>
    { row with held := some b₁.subscriptions.next } }, ?_, ⟨?_, hclock, by simp, ?_⟩, hk₃⟩
  · rw [perform, Run.bind_done hfire, Run.read_bind, hseq, Run.bind_done hsubscribe]
    rfl
  · simp [Table.get?_modify, hrec₃, hrec, hr]
  · exact ⟨_, hsub₃, rfl, fun _ => rfl⟩

/-- Once the events of a run are queued, they arrive up to its disposal and its stop. -/
theorem drain_delivered (limit : VirtualTime) {w : Watch} {fuel : Nat} (h : w.Intact b row)
    (hk : b.clocks.get? w.clock =
      some (k.deliverAll w.sub ⟨[], .recorder w.recorder⟩ k.now events))
    (hord : k.Ordered) (hrest : ∀ q ∈ k.queue, q.action = .closeRun w.recorder)
    (hfuel : k.queue.length + events.length < fuel) :
    ∃ b', E.drainWith w.clock limit fuel b = (.done (), b') ∧
      b'.messages w.recorder =
        row.outlook ((Timeline.sorted (Timeline.shift k.now events)).filter fun e =>
          decide (e.time ≤ limit) && !decide (∃ q ∈ k.queue, q.due ≤ e.time)) := by
  have hcut : ∀ t, (∃ q ∈ k.queue, w.stops q.action ∧ q.due ≤ t) ↔
      decide (∃ q ∈ k.queue, q.due ≤ t) = true := by
    intro t
    rw [decide_eq_true_iff]
    refine exists_congr fun q => and_congr_right fun hq => ?_
    simp [Watch.stops, hrest q hq]
  have hpre : w.arrivals k.queue =
      (Timeline.sorted []).filter fun e => !decide (∃ q ∈ k.queue, q.due ≤ e.time) := by
    cases hq : k.queue with
    | nil => rfl
    | cons q rest => simp [Watch.arrivals, Watch.stops, hrest q (by simp [hq]), Timeline.sorted]
  have hown : ∀ q ∈ (k.deliverAll w.sub ⟨[], .recorder w.recorder⟩ k.now events).queue,
      w.Owns q.action := by
    intro q hq
    rcases Clock.mem_deliverAll hq with hq | ⟨n, hq⟩
    · rw [hrest q hq]
      exact rfl
    · rw [hq]
      exact ⟨rfl, rfl, by simp⟩
  obtain ⟨b', row', k', hdrain, hkept, -, -, -, hout⟩ :=
    Watch.drain_own limit ⟨h, hk, hord.deliverAll⟩ hown
      (by rwa [Clock.length_deliverAll])
  refine ⟨b', hdrain, ?_⟩
  rw [hkept.messages, hout, Watch.arrivals_takeWhile hord.deliverAll.pairwise_due,
    Watch.arrivals_deliverAll hord (le_refl _) rfl hcut hpre, List.filter_filter, List.nil_append,
    Timeline.through_nil]

/-- Once a run is due to subscribe, it takes in the events up to its disposal and its stop. -/
theorem drain_openRun (limit : VirtualTime) {fuel : Nat} {p : Pending (Action α σ)}
    {rest : List (Pending (Action α σ))} (hf : E.BuildsCold factory c events b)
    (hnames : b₁.names = b.names)
    (hsources : b₁.sources = b.sources) (hk : b₁.clocks.get? c = some k) (hord : k.Ordered)
    (hq : k.queue = p :: rest) (hp : p.action = .openRun r factory)
    (hrest : ∀ q ∈ rest, q.action = .closeRun r) (hr : b₁.recorders.get? r = some row)
    (hclock : row.clock = c) (hfuel : rest.length + events.length + 1 < fuel) :
    ∃ b', E.drainWith c limit fuel b₁ = (.done (), b') ∧
      b'.messages r = row.outlook ((Timeline.sorted (Timeline.shift p.due events)).filter fun e =>
        decide (e.time ≤ limit) && !decide (∃ q ∈ rest, q.due ≤ e.time)) := by
  obtain ⟨fuel, rfl⟩ : ∃ n, fuel = n + 1 := ⟨fuel - 1, by omega⟩
  cases hn : b₁.next? c limit with
  | none =>
    have hlt : limit < p.due :=
      hord.lt_of_next?_eq_none (Bench.next?_eq_none hk hn) p (by simp [hq])
    refine ⟨b₁, drainWith_idle hn, ?_⟩
    rw [List.filter_eq_nil_iff.mpr]
    · simp [Bench.messages, hr]
    · intro e he
      have hle := Timeline.le_of_mem_sorted_shift he
      simp [lt_of_lt_of_le hlt hle]
  | some next =>
    obtain ⟨a, b₂⟩ := next
    obtain ⟨p', k', hnext, rfl, hb₂⟩ := Bench.next?_eq_some hk hn
    have hnow := hord.now_next? hnext
    obtain ⟨rest', hq', -, hk'⟩ := Clock.next?_eq_some hnext
    obtain ⟨rfl, rfl⟩ : p = p' ∧ rest = rest' := by simpa [hq] using hq'
    have hqueue : k'.queue = rest := by rw [hk']
    have hk₂ : b₂.clocks.get? c = some k' := by simp [hb₂, Bench.note, Table.get?_modify, hk]
    obtain ⟨b₃, hopen, hint, hk₃⟩ := perform_openRun hf (by rw [hb₂]; exact hnames)
      (by rw [hb₂]; exact hsources) hk₂ (by rw [hb₂]; exact hr) hclock
    have hleft : k'.queue.length + events.length < fuel := by
      rw [hqueue]
      omega
    obtain ⟨b₄, hdrain, hmessages⟩ := drain_delivered (E := E) limit hint hk₃ (hord.next? hnext)
      (by rwa [hqueue]) hleft
    refine ⟨b₄, ?_, ?_⟩
    · rw [drainWith_turn hn, hp, Run.bind_done hopen]
      exact hdrain
    · rw [hmessages, hnow, hqueue]
      rfl

theorem perform_closeRun_idle (h : b.recorders.get? r = some row) (hheld : row.held = none) :
    E.perform (.closeRun r) b = (.done (), b.detach r) := by
  have hread : ((b.detach r).recorders.get? r).bind (·.held) = none := by
    simp [Bench.detach, Table.get?_modify, h, Recorder.detach]
    split <;> exact hheld
  simp only [perform, Run.update_bind, Run.read_bind, hread]
  rfl

/-- A run that is over before it is due to subscribe takes nothing in. -/
theorem drain_closeRun (limit : VirtualTime) {fuel : Nat} {p q : Pending (Action α σ)}
    (hf : E.BuildsCold factory c events b) (hnames : b₁.names = b.names)
    (hsources : b₁.sources = b.sources) (hk : b₁.clocks.get? c = some k) (hord : k.Ordered)
    (hq : k.queue = [q, p]) (hclose : q.action = .closeRun r)
    (hopen : p.action = .openRun r factory)
    (hr : b₁.recorders.get? r = some row) (hclock : row.clock = c) (hheld : row.held = none)
    (hfuel : events.length + 2 < fuel) :
    ∃ b', E.drainWith c limit fuel b₁ = (.done (), b') ∧ b'.messages r = row.messages.toList := by
  obtain ⟨fuel, rfl⟩ : ∃ n, fuel = n + 1 := ⟨fuel - 1, by omega⟩
  cases hn : b₁.next? c limit with
  | none => exact ⟨b₁, drainWith_idle hn, by simp [Bench.messages, hr]⟩
  | some next =>
    obtain ⟨a, b₂⟩ := next
    obtain ⟨q', k', hnext, rfl, hb₂⟩ := Bench.next?_eq_some hk hn
    obtain ⟨rest, hq', -, hk'⟩ := Clock.next?_eq_some hnext
    obtain ⟨rfl, rfl⟩ : q = q' ∧ [p] = rest := by simpa [hq] using hq'
    have hqueue : k'.queue = [p] := by rw [hk']
    have hk₂ : b₂.clocks.get? c = some k' := by simp [hb₂, Bench.note, Table.get?_modify, hk]
    have hr₂ : b₂.recorders.get? r = some row := by rw [hb₂]; exact hr
    have hr₃ : (b₂.detach r).recorders.get? r = some row.detach := by
      simp [Bench.detach, Table.get?_modify, hr₂]
    have hclock₃ : row.detach.clock = c := by
      rw [Recorder.detach]
      split <;> exact hclock
    have hnames₃ : (b₂.detach r).names = b.names := by rw [hb₂]; exact hnames
    have hleft : ([] : List (Pending (Action α σ))).length + events.length + 1 < fuel := by
      rw [List.length_nil]
      omega
    obtain ⟨b₄, hdrain, hmessages⟩ := drain_openRun limit hf hnames₃ (by rw [hb₂]; exact hsources)
      hk₂ (hord.next? hnext) hqueue hopen (by simp) hr₃ hclock₃ hleft
    refine ⟨b₄, ?_, by rw [hmessages, Recorder.outlook_detach, Recorder.outlook_nil]⟩
    rw [drainWith_turn hn, hclose, Run.bind_done (perform_closeRun_idle hr₂ hheld)]
    exact hdrain

theorem start_of_drain {options : RunOptions} {b' : Bench α σ}
    (h : E.drain c options.stopAt (prepared b c factory options) = (.done (), b')) :
    (E.start c factory options b).1 = .done (b'.messages b.recorders.next) := by
  rw [start_eq]
  split
  next hnever =>
    rw [VirtualTime.isNever_iff.mp hnever] at h
    rw [runUntilIdle, Run.bind_done h]
    rfl
  · have hadvance : E.advanceTo c options.stopAt (prepared b c factory options) =
        (.done (), b'.park c options.stopAt) := by
      rw [advanceTo, Run.bind_done h]
      rfl
    rw [Run.bind_done hadvance]
    rfl

/-- The clock of a run that is about to begin. -/
def queued (k : Clock (Action α σ)) (r : RecorderRef) (factory : σ) (options : RunOptions) :
    Clock (Action α σ) :=
  let opened := k.schedule options.subscribeAt (.openRun r factory)
  if options.disposeAt.isNever then opened else opened.schedule options.disposeAt (.closeRun r)

theorem prepared_spec (hk : b.clocks.get? c = some k) (factory : σ) (options : RunOptions) :
    (prepared b c factory options).names = b.names ∧
      (prepared b c factory options).sources = b.sources ∧
      (prepared b c factory options).recorders.get? b.recorders.next = some { clock := c } ∧
      (prepared b c factory options).clocks.get? c =
        some (queued k b.recorders.next factory options) := by
  rw [prepared, queued]
  cases options.disposeAt.isNever <;>
    simp [Bench.schedule, Bench.addRecorder, Table.get?_modify, Table.get?_push, hk]

theorem queued_ordered (hord : k.Ordered) (factory : σ) (options : RunOptions) :
    (queued k r factory options).Ordered := by
  unfold queued
  dsimp only
  split
  · exact hord.schedule _ _
  · exact (hord.schedule _ _).schedule _ _

/-- The action that opens a run. -/
def opening (k : Clock (Action α σ)) (r : RecorderRef) (factory : σ) (options : RunOptions) :
    Pending (Action α σ) := ⟨max options.subscribeAt k.now, k.scheduled, .openRun r factory⟩

/-- The action that closes a run. -/
def closing (k : Clock (Action α σ)) (r : RecorderRef) (options : RunOptions) :
    Pending (Action α σ) := ⟨max options.disposeAt k.now, k.scheduled + 1, .closeRun r⟩

theorem queue_queued (hempty : k.queue = []) (r : RecorderRef) (factory : σ)
    (options : RunOptions) : (queued k r factory options).queue =
      if options.disposeAt.isNever then [opening k r factory options]
      else Clock.enqueue (closing k r options) [opening k r factory options] := by
  have hopening : (k.schedule options.subscribeAt (.openRun r factory)).queue =
      [opening k r factory options] := by
    simp [Clock.schedule, hempty, Clock.enqueue, opening]
  unfold queued
  dsimp only
  split
  · exact hopening
  · rw [Clock.schedule, hopening]
    rfl

/-- A factory of a scenario builds the cold source its recipe names. -/
theorem buildsCold_factory [Shown α] {fuel : Nat} {b : Bench α (Callback α)} {home : ClockRef}
    {recipe : Recipe α} (src : SourceRef) {log : List SubscriptionRecord}
    {attached : List (Nat × Observer α)}
    (hrecipe : b.names.sequence? recipe = some ⟨.source src, []⟩)
    (hsrc : b.sources.get? src = some ⟨.cold, c, events, log, attached⟩) :
    (Callback.engine (fuel + 1)).BuildsCold (.factory home [] recipe) c events b := by
  intro b₁ hnames hsources
  refine ⟨.ok (), b₁.note (.built (b₁.now home)), src, ⟨.cold, c, events, log, attached⟩,
    rfl, rfl, rfl, rfl, ?_, ?_, rfl, rfl, rfl⟩
  · simp [Callback.engine, Callback.sequence, Bench.note, hnames, hrecipe]
  · rw [← hsrc, ← hsources]
    rfl

/-- A run subscribes when it is told to, or at once if that is past, and then takes in the events of
a cold source in the order of their times, as far as they come before its disposal, not after its
stop, and not after a terminal. -/
theorem start_cold (hk : b.clocks.get? c = some k) (hempty : k.queue = [])
    (hf : E.BuildsCold factory c events b) (options : RunOptions)
    (hfuel : events.length + 2 < E.fuel) :
    (E.start c factory options b).1 = .done (Timeline.untilTerminal
      ((Timeline.sorted (Timeline.shift (max options.subscribeAt k.now) events)).filter fun e =>
        (options.disposeAt.isNever || decide (e.time < max options.disposeAt k.now)) &&
          (options.stopAt.isNever || decide (e.time ≤ options.stopAt)))) := by
  have hord : (queued k b.recorders.next factory options).Ordered :=
    queued_ordered ⟨by simp [hempty], by simp [hempty], by simp [hempty]⟩ factory options
  obtain ⟨hnames, hsources, hr, hclock⟩ := prepared_spec hk factory options
  have hqueue := queue_queued hempty b.recorders.next factory options
  simp only [VirtualTime.isNever_or_le]
  cases hnever : options.disposeAt.isNever with
  | true =>
    rw [hnever, if_pos rfl] at hqueue
    have hleft : ([] : List (Pending (Action α σ))).length + events.length + 1 < E.fuel := by
      rw [List.length_nil]
      omega
    obtain ⟨b', hdrain, hmessages⟩ := drain_openRun options.stopAt hf hnames hsources hclock hord
      hqueue rfl (by simp) hr rfl hleft
    rw [start_of_drain hdrain, hmessages, Recorder.outlook_fresh]
    simp [opening]
  | false =>
    rw [hnever, if_neg Bool.false_ne_true] at hqueue
    rcases le_or_gt (opening k b.recorders.next factory options).due
      (closing k b.recorders.next options).due with hle | hlt
    · rw [Clock.enqueue, if_pos hle, Clock.enqueue] at hqueue
      have hleft : [closing k b.recorders.next options].length + events.length + 1 < E.fuel := by
        rw [List.length_singleton]
        omega
      obtain ⟨b', hdrain, hmessages⟩ := drain_openRun options.stopAt hf hnames hsources hclock hord
        hqueue rfl (by simp [closing]) hr rfl hleft
      have hbefore : ∀ t, (!decide (∃ q ∈ [closing k b.recorders.next options], q.due ≤ t)) =
          decide (t < max options.disposeAt k.now) :=
        fun t => by simp only [List.mem_singleton, exists_eq_left, ← decide_not, not_le, closing]
      rw [start_of_drain hdrain, hmessages, Recorder.outlook_fresh]
      simp only [hbefore, Bool.false_or, Bool.and_comm]
      rfl
    · rw [Clock.enqueue, if_neg (not_le.mpr hlt)] at hqueue
      obtain ⟨b', hdrain, hmessages⟩ := drain_closeRun options.stopAt hf hnames hsources hclock hord
        hqueue rfl rfl hr rfl rfl hfuel
      rw [start_of_drain hdrain, hmessages, List.filter_eq_nil_iff.mpr]
      · rfl
      · intro e he
        have hopen : max options.subscribeAt k.now ≤ e.time := Timeline.le_of_mem_sorted_shift he
        have hover : max options.disposeAt k.now ≤ e.time := le_of_lt (lt_of_lt_of_le hlt hopen)
        simp [not_lt.mpr hover]

theorem start_cold_late :
    ((Callback.engine 5).start ⟨0⟩ (.factory ⟨0⟩ [] ⟨.source "s", []⟩) ⟨.clamp 3, .clamp 9, .never⟩
      { (Scenario.fresh : Bench Int64 (Callback Int64)) with
        sources := ⟨#[⟨.cold, ⟨0⟩, [⟨.clamp 6, .completed⟩, ⟨.clamp 2, .next 1⟩], [], []⟩]⟩
        names := { sources := [("s", ⟨0⟩)] } }).1 = .done [⟨.clamp 5, .next 1⟩] :=
  (start_cold (k := {}) rfl rfl (buildsCold_factory ⟨0⟩ rfl rfl)
    ⟨.clamp 3, .clamp 9, .never⟩ (by decide)).trans (congrArg Outcome.done (by decide +kernel))

end Engine

end Marble
