/-
What follows an event that ends no batch. The ring marks an event as the
last of its batch unless it sees another one right behind it, so as long
as the handler was last shown an unmarked event, there is an event to be
read (`Service.Following`). Producers cannot take it back, since what was
published stays so, and the dispatcher does not stop reading before it
has come to it. Hence a dispatcher that has read all there is to read has
last shown its handler the end of a batch, or asked it to flush, or shut
it down (`last_settles`).
-/
import LogPipeline.Proofs.Dispatcher.Replay
import LogPipeline.Proofs.Ring.Batches

namespace LogPipeline

/-- In front of a published event the consumer gets something. -/
theorem Ring.tryNext_ne_none {r : Ring} {fates : Fates} (h : r.Tracks fates)
    (hp : fates.publishedAt r.consumed = true) : r.tryNext.1 ≠ none := by
  intro hnone
  obtain ⟨r', hr'⟩ : ∃ r', r.tryNext = (none, r') := ⟨r.tryNext.2, by rw [← hnone]⟩
  obtain ⟨hpass, hreach⟩ := tryNext_none h hr'
  have hne : r.consumed ≠ r'.consumed := by
    intro heq
    have hres := Fates.resolvedAt_of_publishedAt hp
    rw [heq, hreach, Fates.not_resolvedAt_reach] at hres
    cases hres
  -- it would have been passed over as if nothing was published there
  obtain ⟨v, hv⟩ := Fates.publishedAt_iff.1 hp
  have hbelow := Fates.mem_eventsBelow_of_published (Nat.lt_of_le_of_ne hpass.le hne) hv
  rw [hpass.events_eq] at hbelow
  exact Nat.lt_irrefl _ (Fates.mem_eventsBelow hbelow).1

/-- What was published stays published, whatever producers do. -/
theorem Traffic.Kept.publishedAt {t t' : Traffic} (h : Kept t t') {s : Nat}
    (hs : t.fates.publishedAt s = true) : t'.fates.publishedAt s = true := by
  obtain ⟨v, hv⟩ := Fates.publishedAt_iff.1 hs
  exact Fates.publishedAt_iff.2 ⟨v, h.settled s _ hv rfl⟩

-- ======================================================== the last task

/-- The dispatcher is taking events off the ring. -/
def Phase.isReading : Phase → Bool
  | draining _ | handling => true
  | _ => false

/-- The handler was shown an event that others follow. -/
def Task.leavesMore : Task → Bool
  | event _ endOfBatch => !endOfBatch
  | _ => false

/-- The last of the tasks was an event that others follow. -/
def Task.moreAfter (tasks : List Task) : Bool := tasks.getLast?.any leavesMore

theorem Task.moreAfter_concat (tasks : List Task) (task : Task) :
    moreAfter (tasks ++ [task]) = task.leavesMore := by
  unfold moreAfter
  rw [List.getLast?_concat]
  rfl

/-- A call that goes on is still for the same task. -/
theorem Noted.tasks_amend {H : Type} (x : Call H) (calls : List HandlerCall) :
    (amend x calls).state.calls.map (·.task) = calls.map (·.task) := by
  rcases List.eq_nil_or_concat calls with rfl | ⟨init, c, rfl⟩
  · rfl
  · rw [List.concat_eq_append, amend_concat, List.map_append, List.map_append]
    rfl

theorem Handler.tasks_resumed {H : Type} {h : Handler H} {n : Noted H} {c : Call (Noted H)}
    (hc : h.noted.resume n = some c) : c.state.calls.map (·.task) = n.calls.map (·.task) := by
  obtain ⟨x, -, hx⟩ := Option.map_eq_some_iff.1 hc
  rw [← hx]
  exact Noted.tasks_amend x n.calls

namespace Dispatcher

variable {H : Type}

/-- Whatever a call about an event comes to, the dispatcher reads on from
the same place. -/
theorem reading_afterEvent {x : Call H} {d d' : Dispatcher} {s s' : Shared H}
    (hs : afterEvent x d s = (d', s')) (hl : d.ring.lent = true) :
    d'.phase.isReading = true ∧ d'.ring.frontier = d.ring.frontier ∧ s'.handler = x.state := by
  unfold afterEvent at hs
  cases ho : x.outcome with
  | none =>
      rw [ho] at hs
      cases hs
      exact ⟨rfl, rfl, rfl⟩
  | some o =>
      rw [ho] at hs
      cases hs
      exact ⟨rfl, Ring.frontier_release hl, rfl⟩

end Dispatcher

namespace Service

variable {H : Type} {m₀ : Metrics} {l₀ : StatusLog} {sv : Service (Noted H)}

/-- If the handler was last shown an event that others follow, the
dispatcher is still reading, and the next event is there. -/
def Following (sv : Service (Noted H)) : Prop :=
  Task.moreAfter sv.tasks = true →
    sv.phase.isReading = true ∧ sv.fates.publishedAt sv.ring.frontier = true

theorem following_start (size : Nat) (s : Shared H) : Following (start size s.noted) :=
  fun hmore => by cases hmore

/-- Where the dispatcher does not read, nothing is to follow. -/
theorem Following.last_settled (h : sv.Following) (hp : sv.phase.isReading = false) :
    Task.moreAfter sv.tasks = false :=
  Bool.eq_false_iff.2 fun hmore => by
    rw [(h hmore).1] at hp
    cases hp

/-- With the same tasks, nothing is to follow that was not before. -/
theorem following_of_settled {sv' : Service (Noted H)} (h : Task.moreAfter sv.tasks = false)
    (htasks : sv'.tasks = sv.tasks) : sv'.Following := by
  intro hmore
  rw [htasks, h] at hmore
  cases hmore

/-- After a task that is no event, nothing is to follow. -/
theorem following_of_concat {sv' : Service (Noted H)} (tasks : List Task) (task : Task)
    (htask : task.leavesMore = false) (htasks : sv'.tasks = tasks ++ [task]) :
    sv'.Following := by
  intro hmore
  rw [htasks, Task.moreAfter_concat, htask] at hmore
  cases hmore

-- =============================================================== steps

variable {hh : Handler H} {d : Dispatcher} {s : Shared (Noted H)}

/-- Where there is nothing to show, nothing was to follow. -/
theorem following_dry {handled : Bool} {ring : Ring} (hinv : sv.Inv m₀ l₀) (h : sv.Following)
    (hp : sv.dispatcher.phase = .draining handled)
    (hnext : sv.dispatcher.ring.tryNext = (none, ring)) :
    Following { sv with
      dispatcher := { sv.dispatcher with ring, phase := .checking handled } } := by
  have hlent : sv.ring.lent = false := (hinv.inPhase hp).1
  have hnothing : Task.moreAfter sv.tasks = false := by
    refine Bool.eq_false_iff.2 fun hmore => ?_
    have hpublished := (h hmore).2
    rw [Ring.frontier_of_not_lent hlent] at hpublished
    exact Ring.tryNext_ne_none hinv.tracks hpublished (congrArg Prod.fst hnext)
  exact following_of_settled hnothing rfl

/-- An event that is shown is marked unless the next one is there. -/
theorem following_event {handled : Bool} {e : Ring.Lent} {ring : Ring} (hinv : sv.Inv m₀ l₀)
    (hp : sv.dispatcher.phase = .draining handled)
    (hnext : sv.dispatcher.ring.tryNext = (some e, ring))
    (hafter : Dispatcher.afterEvent
      (hh.noted.onEvent e.slot e.endOfBatch sv.shared.handler) { sv.dispatcher with ring }
      (sv.shared.counted e.endOfBatch) = (d, s)) :
    Following { sv with dispatcher := d, shared := s } := by
  have hlent : sv.ring.lent = false := (hinv.inPhase hp).1
  obtain ⟨-, hl, hseq, -⟩ := Ring.tryNext_some hinv.tracks hlent hnext
  have hmark := Ring.tryNext_mark hinv.tracks hnext
  obtain ⟨hreading, hfrontier, hstate⟩ := Dispatcher.reading_afterEvent hafter hl
  have htasks : s.handler.calls.map (·.task) = sv.tasks ++ [.event e.slot e.endOfBatch] := by
    rw [hstate]
    exact List.map_append
  intro hmore
  have hmore' : Task.moreAfter (s.handler.calls.map (·.task)) = true := hmore
  rw [htasks, Task.moreAfter_concat] at hmore'
  have hunmarked : e.endOfBatch = false := by simpa [Task.leavesMore] using hmore'
  rw [hunmarked, hseq] at hmark
  refine ⟨hreading, ?_⟩
  show sv.fates.publishedAt d.ring.frontier = true
  rw [hfrontier, Ring.frontier_of_lent hl]
  simpa using hmark.symm

/-- A step of the dispatcher, whatever the phase. -/
theorem following_dispatch (hinv : sv.Inv m₀ l₀) (h : sv.Following)
    (hs : sv.dispatcher.step hh.noted sv.shared = some (d, s)) :
    Following { sv with dispatcher := d, shared := s } := by
  -- but for reading, a step leaves the tasks alone or adds one that is no event
  have hsettled : ∀ {p : Phase}, sv.dispatcher.phase = p → p.isReading = false →
      Task.moreAfter sv.tasks = false := by
    intro p hp hr
    exact h.last_settled (by rw [show sv.phase = p from hp, hr])
  cases Dispatcher.stepped_of_step hs with
  | close hp | drain hp | due hp | undue hp | store hp | again hp | leave hp | giveUp hp
    | depart hp =>
      exact following_of_settled (hsettled hp rfl) rfl
  | dry hp hnext => exact following_dry hinv h hp hnext
  | event hp hnext hafter => exact following_event hinv hp hnext hafter
  | eventOn hp hc hafter =>
      have hlent : sv.dispatcher.ring.lent = true := (hinv.inPhase hp).1
      obtain ⟨hreading, hfrontier, hstate⟩ := Dispatcher.reading_afterEvent hafter hlent
      intro hmore
      have hmore' : Task.moreAfter (s.handler.calls.map (·.task)) = true := hmore
      rw [hstate, Handler.tasks_resumed hc] at hmore'
      exact ⟨hreading, (congrArg sv.fates.publishedAt hfrontier).trans (h hmore').2⟩
  | flush hp hafter =>
      have hstate := (congrArg (·.2.handler) hafter).symm.trans (Dispatcher.handler_afterFlush ..)
      refine following_of_concat sv.tasks .flush rfl ?_
      exact (congrArg (·.calls.map (·.task)) hstate).trans List.map_append
  | flushOn hp hc hafter =>
      have hstate := (congrArg (·.2.handler) hafter).symm.trans (Dispatcher.handler_afterFlush ..)
      refine following_of_settled (hsettled hp rfl) ?_
      exact (congrArg (·.calls.map (·.task)) hstate).trans (Handler.tasks_resumed hc)
  | stop hp hafter =>
      have hstate := (congrArg (·.2.handler) hafter).symm.trans (Dispatcher.handler_afterStop ..)
      refine following_of_concat sv.tasks .shutdown rfl ?_
      exact (congrArg (·.calls.map (·.task)) hstate).trans List.map_append
  | stopOn hp hc hafter =>
      have hstate := (congrArg (·.2.handler) hafter).symm.trans (Dispatcher.handler_afterStop ..)
      refine following_of_settled (hsettled hp rfl) ?_
      exact (congrArg (·.calls.map (·.task)) hstate).trans (Handler.tasks_resumed hc)

theorem following_step (hinv : sv.Inv m₀ l₀) (h : sv.Following) (op : ServiceOp) :
    (sv.step hh.noted op).Following := by
  cases op with
  | produce op =>
      have hk := Traffic.kept_produce (t := sv.traffic) hinv.tracks op
      intro hmore
      obtain ⟨hreading, hpublished⟩ := h hmore
      refine ⟨hreading, ?_⟩
      show (sv.traffic.produce op).fates.publishedAt (sv.traffic.produce op).ring.frontier = true
      rw [Ring.frontier_congr hk.consumed_eq hk.lent_eq]
      exact hk.publishedAt hpublished
  | arrive =>
      simp only [step]
      split <;> exact h
  | draw =>
      simp only [step]
      split
      · exact h
      · intro hmore
        obtain ⟨hreading, hpublished⟩ := h hmore
        obtain ⟨v, hv⟩ := Fates.publishedAt_iff.1 hpublished
        refine ⟨hreading, Fates.publishedAt_iff.2 ⟨v, ?_⟩⟩
        exact (List.getElem?_append_left (Fates.lt_of_getElem? hv)).trans hv
  | step =>
      simp only [step]
      split
      · exact h
      · next d s hs => exact following_dispatch hinv h hs
  | _ => exact h

theorem following_run (hinv : sv.Inv m₀ l₀) (h : sv.Following) (ops : List ServiceOp) :
    (sv.run hh.noted ops).Following := by
  induction ops generalizing sv with
  | nil => exact h
  | cons op rest ih => exact ih (inv_step hh hinv op) (following_step hinv h op)

-- ========================================================= all is read

/-- The dispatcher has come to the end of what there was to read, or there
is nothing to read now. -/
def HasRead (sv : Service H) : Prop :=
  sv.phase.isReading = false ∨ sv.ring.tryNext.1 = none

/-- When all is read, the handler was not last shown an event that others
were to follow. -/
theorem last_settles (hinv : sv.Inv m₀ l₀) (h : sv.Following) (hheld : sv.phase.isHeld = false)
    (hread : sv.HasRead) : Task.moreAfter sv.tasks = false := by
  rcases hread with hp | hnone
  · exact h.last_settled hp
  · refine Bool.eq_false_iff.2 fun hmore => ?_
    have hlent : sv.ring.lent = false := by
      rw [hinv.lent_eq]
      cases hphase : sv.phase <;> first | rfl | (rw [hphase] at hheld; cases hheld)
    have hpublished := (h hmore).2
    rw [Ring.frontier_of_not_lent hlent] at hpublished
    exact Ring.tryNext_ne_none hinv.tracks hpublished hnone

end Service

end LogPipeline
