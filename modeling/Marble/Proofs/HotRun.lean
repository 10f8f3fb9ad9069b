import Marble.Proofs.Broadcast
import Marble.Proofs.TimedRun

/-! A timed run of a hot source, whenever the source was made. -/
namespace Marble

variable {α σ : Type} {E : Engine α σ} {b b' : Bench α σ} {c : ClockRef} {s : SourceRef}
  {r : RecorderRef} {factory : σ} {names : Names α} {events : List (Timed (Signal α))}
  {k k' : Clock (Action α σ)} {row : Recorder α} {on : Bool} {limit : VirtualTime}
  {ps : List (Pending (Action α σ))}

namespace Engine

/-- Called on a bench with these names, a factory builds the observable of a source, and it touches
no clock, source, recorder or subscription. -/
def BuildsHot (E : Engine α σ) (factory : σ) (s : SourceRef) (names : Names α) : Prop :=
  ∀ b : Bench α σ, b.names = names →
    ∃ outcome b', E.call factory b = (.done outcome, b') ∧ b'.names = names ∧
      b'.clocks = b.clocks ∧ b'.sources = b.sources ∧ b'.recorders = b.recorders ∧
      b'.subscriptions = b.subscriptions ∧ E.sequence factory b' = ⟨.source s, []⟩

theorem perform_multicast_nobody {source : Source α} (hsource : b.sources.get? s = some source)
    (hnobody : source.attached = []) (n : Signal α) :
    E.perform (.multicast s n) b = (.done (), b) := by
  simp only [perform, multicast, Run.read_bind, hsource, Option.map_some, hnobody]
  rfl

end Engine

/-- A bench on which a run of a hot source is on its way. While it is on, its recorder is the one
observer of the source, by the subscription it holds; while it is not, the source has none. -/
structure Tuned (s : SourceRef) (r : RecorderRef) (names : Names α) (on : Bool) (b : Bench α σ)
    (row : Recorder α) : Prop where
  names : b.names = names
  recorder : b.recorders.get? r = some row
  off : on = false → row.held = none ∧
    ∃ source, b.sources.get? s = some source ∧ source.temperature = .hot ∧ source.attached = []
  on : on = true → ∃ source entry sub, b.sources.get? s = some source ∧
    source.temperature = .hot ∧ source.attached = [(entry, ⟨[], .recorder r⟩)] ∧
    row.held = some sub ∧ b.subscriptions.get? sub = some { teardown := .leave s entry }

namespace Tuned

/-- A run is not concerned with the queues of clocks, nor with the log. -/
theorem congr (h : Tuned s r names on b row) (hnames : b'.names = b.names)
    (hrecorders : b'.recorders = b.recorders) (hsources : b'.sources = b.sources)
    (hsubscriptions : b'.subscriptions = b.subscriptions) : Tuned s r names on b' row where
  names := hnames.trans h.names
  recorder := by rw [hrecorders]; exact h.recorder
  off := by rw [hsources]; exact h.off
  on := by rw [hsources, hsubscriptions]; exact h.on

theorem multicast_off (h : Tuned s r names false b row) (n : Signal α) :
    E.perform (.multicast s n) b = (.done (), b) := by
  obtain ⟨-, source, hsource, -, hattached⟩ := h.off rfl
  exact Engine.perform_multicast_nobody hsource hattached n

theorem multicast_on (h : Tuned s r names true b row) (n : Signal α) :
    E.perform (.multicast s n) b = (.done (), b.record r n) := by
  obtain ⟨source, entry, sub, hsource, -, hattached, -, -⟩ := h.on rfl
  have hhere : b.isAttached s entry = true := by
    simp [Bench.isAttached, hsource, Source.isAttached, hattached]
  have hone : (do
      if ← Run.read (·.isAttached s entry) then E.notify ⟨[], .recorder r⟩ n else return () :
        Run α σ Unit) b = (.done (), b.record r n) := by
    rw [Run.read_bind, hhere]
    rfl
  simp only [Engine.perform, Engine.multicast, Run.read_bind, hsource, Option.map_some, hattached,
    Option.getD_some]
  rw [Run.each, Run.bind_done hone]
  rfl

theorem record (h : Tuned s r names on b row) (n : Signal α) :
    Tuned s r names on (b.record r n) (row.record (b.now row.clock) n) where
  names := h.names
  recorder := by simp [Bench.record, Table.get?_modify, h.recorder]
  off hoff := by
    rw [Recorder.record]
    split <;> exact h.off hoff
  on hon := by
    rw [Recorder.record]
    split <;> exact h.on hon

theorem openRun (hf : E.BuildsHot factory s names) (h : Tuned s r names false b row) :
    ∃ b' held, E.perform (.openRun r factory) b = (.done (), b') ∧
      Tuned s r names true b' { row with held := some held } ∧ b'.clocks = b.clocks := by
  obtain ⟨outcome, b₁, hcall, hnames, hclocks, hsources, hrecorders, hsubs, hseq⟩ := hf b h.names
  obtain ⟨-, source, hsource, hhot, hattached⟩ := h.off rfl
  have hcall' : (E.call factory).result b = (.done outcome, b₁) := hcall
  have hfire : E.fire factory b = (.done (), b₁) := by
    rw [Engine.fire, Run.bind_done hcall']
    rfl
  have hsource₁ : b₁.sources.get? s = some source := by rw [hsources, hsource]
  obtain ⟨b₂, hattach, hnames₂, hclocks₂, hrecorders₂, hsub, hsource₂⟩ :=
    Bench.attach_hot hsource₁ hhot ⟨[], .recorder r⟩
  have hsubscribe : E.subscribe ⟨.source s, []⟩ (.recorder r) b₁ =
      (.done b₁.subscriptions.next, b₂) := by
    change (Outcome.done (b₁.attach s ⟨[], .recorder r⟩).1, (b₁.attach s ⟨[], .recorder r⟩).2) = _
    rw [hattach]
  refine ⟨{ b₂ with recorders := b₂.recorders.modify r fun row =>
    { row with held := some b₁.subscriptions.next } },
    b₁.subscriptions.next, ?_, ⟨?_, ?_, ?_, ?_⟩, ?_⟩
  · rw [Engine.perform, Run.bind_done hfire, Run.read_bind, hseq, Run.bind_done hsubscribe]
    rfl
  · exact hnames₂.trans hnames
  · simp [Table.get?_modify, hrecorders₂, hrecorders, h.recorder]
  · exact fun hoff => by cases hoff
  · exact fun _ => ⟨_, source.log.length, b₁.subscriptions.next, hsource₂, hhot,
      by simp [hattached], rfl, hsub⟩
  · exact hclocks₂.trans hclocks

theorem closeRun (h : Tuned s r names on b row) :
    ∃ b' row', E.perform (.closeRun r) b = (.done (), b') ∧ Tuned s r names false b' row' ∧
      b'.clocks = b.clocks ∧ (∀ coming, row'.outlook coming = row.messages.toList) ∧
      row'.clock = row.clock := by
  have hdetached : (b.detach r).recorders.get? r = some row.detach := by
    simp [Bench.detach, Table.get?_modify, h.recorder]
  have hheld : row.detach.held = row.held := by
    rw [Recorder.detach]
    split <;> rfl
  have hclock : row.detach.clock = row.clock := by
    rw [Recorder.detach]
    split <;> rfl
  have hmessages : row.detach.messages = row.messages := by
    rw [Recorder.detach]
    split <;> rfl
  cases on with
  | false =>
    obtain ⟨hnone, hsource⟩ := h.off rfl
    refine ⟨b.detach r, row.detach, Engine.perform_closeRun_idle h.recorder hnone,
      ⟨h.names, hdetached, fun _ => ⟨hheld.trans hnone, hsource⟩, fun hon => by cases hon⟩,
      rfl, fun coming => ?_, hclock⟩
    rw [Recorder.outlook_detach, Recorder.outlook_nil]
  | true =>
    obtain ⟨source, entry, sub, hsource, hhot, hattached, hsome, hsub⟩ := h.on rfl
    let released : Bench α σ := { b.detach r with
      recorders := (b.detach r).recorders.modify r fun row => { row with held := none } }
    have hread : ((b.detach r).recorders.get? r).bind (·.held) = some sub := by
      rw [hdetached, Option.bind_some, hheld, hsome]
    have hdispose : E.dispose sub released =
        (.done (), (released.deactivate sub).leave s entry) := by
      rw [Engine.dispose, Run.read_bind, show released.subscriptions.get? sub = _ from hsub]
      rfl
    refine ⟨(released.deactivate sub).leave s entry, { row.detach with held := none }, ?_,
      ⟨h.names, ?_, fun _ => ⟨rfl, source.leave entry (released.now source.clock), ?_, hhot, ?_⟩,
        fun hon => by cases hon⟩, rfl, fun coming => ?_, hclock⟩
    · rw [Engine.perform, Run.update_bind, Run.read_bind, hread]
      exact hdispose
    · simp [Bench.leave, Bench.deactivate, released, Table.get?_modify, hdetached]
    · simp [Bench.leave, Bench.deactivate, released, Bench.detach, Table.get?_modify, hsource]
      rfl
    · simp [Source.leave, hattached]
    · have hstate : ({ row.detach with held := none } : Recorder α).state ≠ .listening :=
        row.detach_state
      rw [Recorder.outlook_of_ne hstate]
      exact congrArg Array.toList hmessages

end Tuned

/-- The first action of an orderly queue starts, or all that is queued is due too late. -/
theorem Bench.next?_cases {p : Pending (Action α σ)} (hk : b.clocks.get? c = some k)
    (hord : k.Ordered) (hq : k.queue = p :: ps) (limit : VirtualTime) :
    (b.next? c limit = none ∧ ∀ q ∈ p :: ps, limit < q.due) ∨
      p.due ≤ limit ∧ ∃ b₁ k₁, b.next? c limit = some (p.action, b₁) ∧
        b₁.clocks.get? c = some k₁ ∧ k₁.Ordered ∧ k₁.queue = ps ∧ k₁.now = p.due ∧
        b₁.names = b.names ∧ b₁.recorders = b.recorders ∧ b₁.sources = b.sources ∧
        b₁.subscriptions = b.subscriptions := by
  cases hn : b.next? c limit with
  | none =>
    have hlt := hord.lt_of_next?_eq_none (next?_eq_none hk hn)
    rw [hq] at hlt
    exact Or.inl ⟨rfl, hlt⟩
  | some next =>
    right
    obtain ⟨a, b₁⟩ := next
    obtain ⟨p', k₁, hnext, rfl, rfl⟩ := next?_eq_some hk hn
    obtain ⟨rest, hq', hle, hk₁⟩ := Clock.next?_eq_some hnext
    obtain ⟨rfl, rfl⟩ : p = p' ∧ ps = rest := by simpa [hq] using hq'
    refine ⟨hle, _, k₁, rfl, ?_, hord.next? hnext, by rw [hk₁], hord.now_next? hnext, rfl, rfl, rfl,
      rfl⟩
    simp [note, Table.get?_modify, hk]

namespace Engine

theorem filter_due_eq_nil (h : ∀ p ∈ ps, limit < p.due) :
    ps.filter (fun p => decide (p.due ≤ limit)) = [] :=
  List.filter_eq_nil_iff.mpr fun p hp => by simpa using h p hp

/-- With no observer, the events of a hot source pass unheard. -/
theorem drain_unheard (limit : VirtualTime) {fuel : Nat} {source : Source α} (hairs : Airs s ps)
    (hsource : b.sources.get? s = some source) (hnobody : source.attached = [])
    (hk : b.clocks.get? c = some k) (hord : k.Ordered) (hq : k.queue = ps)
    (hfuel : ps.length < fuel) :
    ∃ b' k', E.drainWith c limit fuel b = (.done (), b') ∧ b'.names = b.names ∧
      b'.sources = b.sources ∧ b'.clocks.get? c = some k' ∧ k'.Ordered ∧
      k'.queue = ps.filter (fun p => decide (limit < p.due)) ∧
      max k'.now limit = max k.now limit := by
  induction ps generalizing b k fuel with
  | nil =>
    obtain ⟨fuel, rfl⟩ : ∃ m, fuel = m + 1 := ⟨fuel - 1, by simp at hfuel; omega⟩
    have hnone : b.next? c limit = none := by simp [Bench.next?, hk, Clock.next?, hq]
    exact ⟨b, k, drainWith_idle hnone, rfl, rfl, hk, hord, hq, rfl⟩
  | cons p ps ih =>
    obtain ⟨fuel, rfl⟩ : ∃ m, fuel = m + 1 := ⟨fuel - 1, by simp at hfuel; omega⟩
    have hleft : ps.length < fuel := by simpa using hfuel
    rcases Bench.next?_cases hk hord hq limit with ⟨hnone, hlt⟩ | ⟨hle, b₁, k₁, hn, hk₁, hord₁, hq₁,
      hnow, hnames, -, hsources, -⟩
    · refine ⟨b, k, drainWith_idle hnone, rfl, rfl, hk, hord, ?_, rfl⟩
      rw [hq, List.filter_eq_self.mpr fun q hq' => by simpa using hlt q hq']
    · obtain ⟨n, hp⟩ := hairs p (by simp)
      have hsource₁ : b₁.sources.get? s = some source := by rw [hsources, hsource]
      obtain ⟨b', k', hdrain, hnames', hsources', hk', hord', hq', hmax⟩ :=
        ih hairs.of_cons hsource₁ hk₁ hord₁ hq₁ hleft
      refine ⟨b', k', ?_, hnames'.trans hnames, hsources'.trans hsources, hk', hord', ?_, ?_⟩
      · rw [drainWith_turn hn, hp, Run.bind_done (perform_multicast_nobody hsource₁ hnobody n)]
        exact hdrain
      · rw [hq', List.filter_cons_of_neg (by simpa using hle)]
      · have hlate : k.now ≤ p.due := hord.due p (by simp [hq])
        rw [hmax, hnow, max_eq_right hle, max_eq_right (hlate.trans hle)]

theorem advanceTo_unheard (target : VirtualTime) {source : Source α} (hairs : Airs s k.queue)
    (hsource : b.sources.get? s = some source) (hnobody : source.attached = [])
    (hk : b.clocks.get? c = some k) (hord : k.Ordered) (hfuel : k.queue.length < E.fuel) :
    ∃ b' k', E.advanceTo c target b = (.done (), b') ∧ b'.names = b.names ∧
      b'.sources = b.sources ∧ b'.clocks.get? c = some k' ∧ k'.Ordered ∧
      k'.queue = k.queue.filter (fun p => decide (target < p.due)) ∧ k'.now = max k.now target := by
  obtain ⟨b₁, k₁, hdrain, hnames, hsources, hk₁, hord₁, hq₁, hmax⟩ :=
    drain_unheard (E := E) target hairs hsource hnobody hk hord rfl hfuel
  have hdone : E.drain c target b = (.done (), b₁) := hdrain
  have hidle := Bench.next?_eq_none hk₁ (next?_of_drainWith hdrain)
  refine ⟨b₁.park c target, k₁.park target, ?_, hnames, hsources, ?_, hord₁.park hidle, hq₁, hmax⟩
  · rw [advanceTo, Run.bind_done hdone]
    rfl
  · simp [Bench.park, Table.get?_modify, hk₁]

/-- However a clock is moved forward, what is left of the events is what is due after all
targets. -/
theorem advances_unheard (targets : List VirtualTime) {source : Source α} (hairs : Airs s k.queue)
    (hsource : b.sources.get? s = some source) (hnobody : source.attached = [])
    (hk : b.clocks.get? c = some k) (hord : k.Ordered) (hfuel : k.queue.length < E.fuel) :
    ∃ b' k', Run.each (E.advanceTo c) targets b = (.done (), b') ∧ b'.names = b.names ∧
      b'.sources = b.sources ∧ b'.clocks.get? c = some k' ∧ k'.Ordered ∧
      k'.queue = k.queue.filter (fun p => decide (∀ t ∈ targets, t < p.due)) ∧
      k'.now = targets.foldl max k.now := by
  induction targets generalizing b k with
  | nil => exact ⟨b, k, rfl, rfl, rfl, hk, hord, by simp, rfl⟩
  | cons target targets ih =>
    obtain ⟨b₁, k₁, hadvance, hnames₁, hsources₁, hk₁, hord₁, hq₁, hnow₁⟩ :=
      advanceTo_unheard (E := E) target hairs hsource hnobody hk hord hfuel
    have hairs₁ : Airs s k₁.queue := fun p hp => by
      rw [hq₁] at hp
      exact hairs p (List.mem_of_mem_filter hp)
    have hfuel₁ : k₁.queue.length < E.fuel := by
      rw [hq₁]
      exact lt_of_le_of_lt (List.length_filter_le _ _) hfuel
    obtain ⟨b', k', hrun, hnames, hsources, hk', hord', hq', hnow'⟩ :=
      ih hairs₁ (by rw [hsources₁, hsource]) hk₁ hord₁ hfuel₁
    refine ⟨b', k', ?_, hnames.trans hnames₁, hsources.trans hsources₁, hk', hord', ?_, ?_⟩
    · rw [Run.each, Run.bind_done hadvance]
      exact hrun
    · rw [hq', hq₁, List.filter_filter]
      simp [Bool.and_comm]
    · rw [hnow', hnow₁, List.foldl_cons]

/-- Nothing more is heard once all that is queued is due too late. -/
theorem drain_late {fuel : Nat} (h : Tuned s r names on b row) (hnone : b.next? c limit = none)
    (hlt : ∀ p ∈ ps, limit < p.due) :
    ∃ b', E.drainWith c limit (fuel + 1) b = (.done (), b') ∧
      b'.messages r = row.outlook (heard on (ps.filter fun p => decide (p.due ≤ limit))) := by
  refine ⟨b, drainWith_idle hnone, ?_⟩
  rw [filter_due_eq_nil hlt]
  simp [Bench.messages, h.recorder, heard]

/-- The first action that is queued is carried out, unless all that is queued is due too late. -/
theorem drain_first {p : Pending (Action α σ)} {fuel : Nat} (h : Tuned s r names on b row)
    (hk : b.clocks.get? c = some k) (hord : k.Ordered) (hq : k.queue = p :: ps)
    (hfuel : (p :: ps).length < fuel)
    (hturn : ∀ fuel b₁ k₁, ps.length < fuel → Tuned s r names on b₁ row →
      b₁.clocks.get? c = some k₁ → k₁.Ordered → k₁.queue = ps → b₁.now c = p.due →
      ∃ b', (E.perform p.action >>= fun _ => E.drainWith c limit fuel) b₁ = (.done (), b') ∧
        b'.messages r = row.outlook (heard on (p :: ps.filter fun p => decide (p.due ≤ limit)))) :
    ∃ b', E.drainWith c limit fuel b = (.done (), b') ∧
      b'.messages r =
        row.outlook (heard on ((p :: ps).filter fun p => decide (p.due ≤ limit))) := by
  obtain ⟨fuel, rfl⟩ : ∃ m, fuel = m + 1 := ⟨fuel - 1, by simp at hfuel; omega⟩
  rcases Bench.next?_cases hk hord hq limit with ⟨hnone, hlt⟩ | ⟨hle, b₁, k₁, hn, hk₁, hord₁, hq₁,
    hnow, hnames, hrecorders, hsources, hsubs⟩
  · exact drain_late h hnone hlt
  · have hleft : ps.length < fuel := by simpa using hfuel
    have hreads : b₁.now c = p.due := by simp [Bench.now, hk₁, hnow]
    rw [drainWith_turn hn, List.filter_cons_of_pos (by simpa using hle)]
    exact hturn fuel b₁ k₁ hleft (h.congr hnames hrecorders hsources hsubs) hk₁ hord₁ hq₁ hreads

/-- A run takes in what is heard of the queue up to its stop. -/
theorem drain_plays (limit : VirtualTime) {fuel : Nat} (hf : E.BuildsHot factory s names)
    (hplays : Plays s r factory on ps) (h : Tuned s r names on b row)
    (hk : b.clocks.get? c = some k) (hord : k.Ordered) (hq : k.queue = ps) (hclock : row.clock = c)
    (hfuel : ps.length < fuel) :
    ∃ b', E.drainWith c limit fuel b = (.done (), b') ∧
      b'.messages r = row.outlook (heard on (ps.filter fun p => decide (p.due ≤ limit))) := by
  induction hplays generalizing b row k fuel with
  | nil on =>
    obtain ⟨fuel, rfl⟩ : ∃ m, fuel = m + 1 := ⟨fuel - 1, by simp at hfuel; omega⟩
    have hnone : b.next? c limit = none := by simp [Bench.next?, hk, Clock.next?, hq]
    exact drain_late h hnone (by simp)
  | @multicast on p n ps hp hplays ih =>
    refine drain_first h hk hord hq hfuel fun fuel b₁ k₁ hleft h₁ hk₁ hord₁ hq₁ hreads => ?_
    cases on with
    | false =>
      obtain ⟨b', hdrain, hmessages⟩ := ih h₁ hk₁ hord₁ hq₁ hclock hleft
      refine ⟨b', ?_, by rw [hmessages, heard_multicast_false hp]⟩
      rw [hp, Run.bind_done (h₁.multicast_off n)]
      exact hdrain
    | true =>
      have hkept : (row.record (b₁.now row.clock) n).clock = c := by
        rw [Recorder.record]
        split <;> exact hclock
      obtain ⟨b', hdrain, hmessages⟩ := ih (h₁.record n) hk₁ hord₁ hq₁ hkept hleft
      refine ⟨b', ?_, ?_⟩
      · rw [hp, Run.bind_done (h₁.multicast_on n)]
        exact hdrain
      · rw [hmessages, heard_multicast_true hp, Recorder.outlook_record, hclock, hreads]
  | @openRun p ps hp hplays ih =>
    refine drain_first h hk hord hq hfuel fun fuel b₁ k₁ hleft h₁ hk₁ hord₁ hq₁ _ => ?_
    obtain ⟨b₂, held, hopen, h₂, hclocks⟩ := h₁.openRun hf
    rw [← hclocks] at hk₁
    obtain ⟨b', hdrain, hmessages⟩ := ih h₂ hk₁ hord₁ hq₁ hclock hleft
    refine ⟨b', ?_, ?_⟩
    · rw [hp, Run.bind_done hopen]
      exact hdrain
    · rw [hmessages, heard_openRun hp]
      rfl
  | @closeRun on p ps hp hplays ih =>
    refine drain_first h hk hord hq hfuel fun fuel b₁ k₁ hleft h₁ hk₁ hord₁ hq₁ _ => ?_
    obtain ⟨b₂, row₂, hclose, h₂, hclocks, hsilent, hsame⟩ := h₁.closeRun (E := E)
    rw [← hclocks] at hk₁
    obtain ⟨b', hdrain, hmessages⟩ := ih h₂ hk₁ hord₁ hq₁ (hsame.trans hclock) hleft
    refine ⟨b', ?_, ?_⟩
    · rw [hp, Run.bind_done hclose]
      exact hdrain
    · rw [hmessages, hsilent, heard_closeRun hp, Recorder.outlook_nil]

/-- The queue of a clock once a run has been prepared. -/
theorem queue_prepared (k : Clock (Action α σ)) (r : RecorderRef) (factory : σ)
    (options : RunOptions) :
    (queued k r factory options).queue =
      if options.disposeAt.isNever then Clock.enqueue (opening k r factory options) k.queue
      else Clock.enqueue (closing k r options)
        (Clock.enqueue (opening k r factory options) k.queue) := by
  rw [queued]
  split <;> rfl

theorem plays_queued (hairs : Airs s k.queue) (r : RecorderRef) (factory : σ)
    (options : RunOptions) : Plays s r factory false (queued k r factory options).queue := by
  rw [queue_prepared]
  split
  · exact hairs.plays_enqueue rfl
  · exact (hairs.plays_enqueue rfl).enqueue rfl

theorem length_queued_le (k : Clock (Action α σ)) (r : RecorderRef) (factory : σ)
    (options : RunOptions) : (queued k r factory options).queue.length ≤ k.queue.length + 2 := by
  rw [queue_prepared]
  split <;> simp only [Clock.length_enqueue] <;> omega

/-- What a run is to hear of the events in the queue. -/
theorem heard_queued (hairs : Airs s k.queue) (hord : k.Ordered) (options : RunOptions) :
    heard false ((queued k r factory options).queue.filter fun p =>
        decide (p.due ≤ options.stopAt)) =
      (heard true k.queue).filter fun e => decide (max options.subscribeAt k.now < e.time) &&
        (options.disposeAt.isNever || decide (e.time ≤ max options.disposeAt k.now)) &&
          decide (e.time ≤ options.stopAt) := by
  have hopened : (Clock.enqueue (opening k r factory options) k.queue).Pairwise
      fun p q => p.due ≤ q.due :=
    (hord.schedule options.subscribeAt (.openRun r factory)).pairwise_due
  have hopening : ∀ P : VirtualTime → Bool, (∀ t t', t ≤ t' → P t' → P t) →
      heard false ((Clock.enqueue (opening k r factory options) k.queue).filter fun p => P p.due) =
        (heard true k.queue).filter fun e =>
          decide (max options.subscribeAt k.now < e.time) && P e.time :=
    fun P hP => heard_enqueue_openRun hairs hord.pairwise_due rfl hP
  have hclosing : heard false ((Clock.enqueue (closing k r options)
        (Clock.enqueue (opening k r factory options) k.queue)).filter fun p =>
          decide (p.due ≤ options.stopAt)) =
      heard false ((Clock.enqueue (opening k r factory options) k.queue).filter fun p =>
        decide (p.due ≤ max options.disposeAt k.now) && decide (p.due ≤ options.stopAt)) :=
    heard_enqueue_closeRun (P := fun t => decide (t ≤ options.stopAt)) hopened rfl
      fun t t' hle => by simpa using le_trans hle
  rw [queue_prepared]
  cases hnever : options.disposeAt.isNever with
  | true =>
    rw [if_pos rfl]
    rw [hopening (fun t => decide (t ≤ options.stopAt)) fun t t' hle => by simpa using le_trans hle]
    simp
  | false =>
    rw [if_neg Bool.false_ne_true, hclosing]
    rw [hopening (fun t => decide (t ≤ max options.disposeAt k.now) && decide (t ≤ options.stopAt))
      fun t t' hle => by
        simp only [Bool.and_eq_true, decide_eq_true_eq]
        exact fun h => ⟨hle.trans h.1, hle.trans h.2⟩]
    simp [Bool.and_assoc]

/-- A factory of a scenario builds the source its recipe names. -/
theorem buildsHot_factory [Shown α] {fuel : Nat} {home : ClockRef} {recipe : Recipe α}
    {names : Names α} (hrecipe : names.sequence? recipe = some ⟨.source s, []⟩) :
    (Callback.engine (fuel + 1)).BuildsHot (.factory home [] recipe) s names := by
  intro b hnames
  refine ⟨.ok (), b.note (.built (b.now home)), rfl, hnames, rfl, rfl, rfl, rfl, ?_⟩
  simp [Callback.engine, Callback.sequence, Bench.note, hnames, hrecipe]

/-- A run of a hot source takes in the events that were still to come when the source was made, in
the order of their times and at these times, as far as they come after it subscribes, not after its
disposal nor its stop, and not after a terminal. It subscribes when it is told to, or at once if
that is past. -/
theorem start_hot (hk : b.clocks.get? c = some k) (hempty : k.queue = []) (names : Names α)
    (hf : E.BuildsHot factory b.sources.next names) (hfuel : events.length + 2 < E.fuel)
    (targets : List VirtualTime) (options : RunOptions) :
    ∃ b', Run.each (E.advanceTo c) targets { (b.addSource .hot c events).2 with names } =
        (.done (), b') ∧
      b'.now c = targets.foldl max k.now ∧
      (E.start c factory options b').1 = .done (Timeline.untilTerminal
        ((Timeline.sorted events).filter fun e =>
          decide (k.now ≤ e.time) && decide (max options.subscribeAt (b'.now c) < e.time) &&
            (options.disposeAt.isNever || decide (e.time ≤ max options.disposeAt (b'.now c))) &&
            (options.stopAt.isNever || decide (e.time ≤ options.stopAt)))) := by
  let src := b.sources.next
  let coming := events.filter fun e => decide (k.now ≤ e.time)
  have hord : k.Ordered := ⟨by simp [hempty], by simp [hempty], by simp [hempty]⟩
  have hairs : Airs src (k.airing src coming).queue := Clock.airs_airing hempty
  have hlength : (k.airing src coming).queue.length ≤ events.length := by
    rw [Clock.length_airing, hempty, List.length_nil, Nat.zero_add]
    exact List.length_filter_le _ _
  obtain ⟨b₀, hadd, hsource, hk₀⟩ := Bench.addSource_hot hk events
  obtain ⟨b₁, k₁, hadvance, hnames₁, hsources₁, hk₁, hord₁, hq₁, hnow₁⟩ :=
    advances_unheard (E := E) (b := { b₀ with names }) targets hairs hsource rfl hk₀ hord.airing
      (by omega)
  have hnow : b₁.now c = k₁.now := by simp [Bench.now, hk₁]
  have hairs₁ : Airs src k₁.queue := fun p hp => by
    rw [hq₁] at hp
    exact hairs p (List.mem_of_mem_filter hp)
  have hlength₁ : (queued k₁ b₁.recorders.next factory options).queue.length < E.fuel := by
    have hkept : k₁.queue.length ≤ events.length := by
      rw [hq₁]
      exact (List.length_filter_le _ _).trans hlength
    have hadded := length_queued_le k₁ b₁.recorders.next factory options
    omega
  have hplays := plays_queued hairs₁ b₁.recorders.next factory options
  obtain ⟨hnames₂, hsources₂, hr, hk₂⟩ := prepared_spec hk₁ factory options
  have htuned : Tuned src b₁.recorders.next names false (prepared b₁ c factory options)
      { clock := c } := by
    refine ⟨hnames₂.trans hnames₁, hr, fun _ =>
      ⟨rfl, { temperature := .hot, clock := c, events }, ?_, rfl, rfl⟩, fun hon => by cases hon⟩
    rw [hsources₂, hsources₁]
    exact hsource
  obtain ⟨b₂, hdrain, hmessages⟩ := drain_plays options.stopAt hf hplays htuned hk₂
    (queued_ordered hord₁ factory options) rfl rfl hlength₁
  refine ⟨b₁, ?_, by rw [hnow, hnow₁, Clock.now_airing], ?_⟩
  · rw [hadd]
    exact hadvance
  · have hheard : heard true k₁.queue = (Timeline.sorted events).filter fun e =>
        decide (∀ t ∈ targets, t < e.time) && decide (k.now ≤ e.time) := by
      rw [hq₁]
      exact Clock.heard_left hempty fun t => decide (∀ t' ∈ targets, t' < t)
    rw [start_of_drain hdrain, hmessages, Recorder.outlook_fresh, heard_queued hairs₁ hord₁, hheard,
      List.filter_filter, hnow]
    refine congrArg (fun tl => Outcome.done (Timeline.untilTerminal tl)) ?_
    refine List.filter_congr fun e _ => ?_
    have hlate : max options.subscribeAt k₁.now < e.time → ∀ t ∈ targets, t < e.time := by
      intro hlt t ht
      have hle : t ≤ k₁.now := by
        rw [hnow₁]
        exact (VirtualTime.le_foldl_max targets _).2 t ht
      exact lt_of_le_of_lt (hle.trans (le_max_right _ _)) hlt
    rw [VirtualTime.isNever_or_le]
    by_cases hlt : max options.subscribeAt k₁.now < e.time
    · have hopen : decide (max options.subscribeAt k₁.now < e.time) = true := decide_eq_true hlt
      have hpast : decide (∀ t ∈ targets, t < e.time) = true := decide_eq_true (hlate hlt)
      simp only [hopen, hpast, Bool.true_and, Bool.and_true]
      rw [Bool.and_comm, Bool.and_assoc]
    · simp [hlt]

theorem start_hot_late :
    ∃ b', Run.each ((Callback.engine 7).advanceTo ⟨0⟩) [.clamp 2]
        { ((Scenario.fresh : Bench Int64 (Callback Int64)).addSource .hot ⟨0⟩
            [⟨.clamp 8, .completed⟩, ⟨.clamp 5, .next 3⟩, ⟨.clamp 2, .next 1⟩,
              ⟨.clamp 3, .next 2⟩]).2 with names := { sources := [("s", ⟨0⟩)] } } = (.done (), b') ∧
      b'.now ⟨0⟩ = [.clamp 2].foldl max .zero ∧
      ((Callback.engine 7).start ⟨0⟩ (.factory ⟨0⟩ [] ⟨.source "s", []⟩)
        ⟨.clamp 3, .clamp 5, .never⟩ b').1 = .done [⟨.clamp 5, .next 3⟩] := by
  have hbuilds : (Callback.engine 7 : Engine Int64 (Callback Int64)).BuildsHot
      (.factory ⟨0⟩ [] ⟨.source "s", []⟩) ⟨0⟩ { sources := [("s", ⟨0⟩)] } := buildsHot_factory rfl
  have hfuel : ([⟨.clamp 8, .completed⟩, ⟨.clamp 5, .next 3⟩, ⟨.clamp 2, .next 1⟩,
      ⟨.clamp 3, .next 2⟩] : List (Timed (Signal Int64))).length + 2 <
        (Callback.engine 7 : Engine Int64 (Callback Int64)).fuel := by decide
  obtain ⟨b', hadvance, hnow, hstart⟩ := start_hot (b := Scenario.fresh) (c := ⟨0⟩)
    (k := {}) rfl rfl
    { sources := [("s", ⟨0⟩)] } hbuilds hfuel [.clamp 2] ⟨.clamp 3, .clamp 5, .never⟩
  refine ⟨b', hadvance, hnow, ?_⟩
  rw [hstart, hnow]
  exact congrArg Outcome.done (by decide +kernel)

end Engine

end Marble
