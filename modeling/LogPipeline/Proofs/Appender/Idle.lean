/-
No bytes are left behind in a buffer when a dispatcher has read all there
is to read (`AppenderSet.nothing_stranded`), whatever the outputs' filters
and formatters do and however their sinks fail.

Three facts come together. A manager that is written to at the end of a
batch, or flushed, has an empty buffer afterwards, whether or not its sink
took the bytes (`buffer_write`). An errand that ends a batch comes to
every output of the set with such a call, a flush where the output denies
the event or cannot format it (`emptied_call`, `emptied_visitAll`). And
the last errand before all is read does end a batch
(`Service.last_settles`), so it does not matter what was buffered before.
A closed manager buffers nothing any more, and stopping the set settles
every buffer as well.
-/
import LogPipeline.Proofs.Appender.Batching
import LogPipeline.Proofs.Appender.Crews
import LogPipeline.Proofs.Dispatcher.Following
import LogPipeline.Proofs.Samples

namespace LogPipeline

-- ======================================================= calls that push

/-- The call sends on what is buffered. -/
def AppenderCall.pushes : AppenderCall → Bool
  | append _ endOfBatch => endOfBatch
  | flush | stop => true

/-- The call of a set ends a batch. -/
def SetCall.pushes : SetCall → Bool
  | deliver _ endOfBatch => endOfBatch
  | flush => true

variable {W : Type}

/-- After a write that ends a batch nothing is buffered. -/
theorem Manager.buffer_write (k : Sink W) (bytes : ByteArray) {m : Manager} (w : W)
    (hopen : m.closed = false) : (write k bytes true m w).2.1.buffer = .empty := by
  unfold write
  rw [hopen]
  simp only [Bool.false_eq_true, if_false, Bool.or_true, if_true]
  exact buffer_push k _ _

namespace ManagedOutput

variable {o : ManagedOutput} {c : AppenderCall} {r : Registry W}

/-- A call that pushes empties the buffer of the output's manager, if that
is open: a write does, and so does the flush in place of one. -/
theorem emptied_call (hc : c.pushes = true) (hopen : r.openAt o.handle.outlet = true) :
    (ops.call c o r).2.bufferAt o.handle.outlet = some .empty := by
  have hflush : (r.flush o.handle).2.bufferAt o.handle.outlet = some .empty :=
    Registry.bufferAt_pushed o.handle (fun k m w hm => Manager.buffer_flush k w hm) hopen
  cases c with
  | append e endOfBatch =>
      have htrue : endOfBatch = true := hc
      subst htrue
      show (o.append e true r).2.bufferAt o.handle.outlet = some .empty
      unfold append
      split
      · next bytes _ =>
        exact Registry.bufferAt_pushed o.handle
          (fun k m w hm => Manager.buffer_write k bytes w hm) hopen
      · exact hflush
  | flush | stop => exact hflush

/-- An empty buffer is still empty after a call that pushes, whosever it is. -/
theorem empty_call (hc : c.pushes = true) {i : Nat} (hi : r.bufferAt i = some .empty) :
    (ops.call c o r).2.bufferAt i = some .empty := by
  have hdisturbed := disturbs_call (.refl [o.handle.outlet] r) c (List.mem_singleton_self _)
  rcases hdisturbed.bufferAt i with hsame | ⟨hmem, hopen⟩
  · rw [hsame, hi]
  · rw [List.mem_singleton.1 hmem] at hopen ⊢
    exact emptied_call hc hopen

end ManagedOutput

-- ==================================================== errands that push

namespace SetCall

variable {c : SetCall} {o : ManagedOutput} {r : Registry W}

/-- At the end of a batch every output is called, and its call pushes. -/
theorem visit_pushes (hc : c.pushes = true) (o : ManagedOutput) (t : Tally) (r : Registry W) :
    ∃ call : AppenderCall, call.pushes = true
      ∧ (c.errand.visit ManagedOutput.ops o t r).2.2 = (ManagedOutput.ops.call call o r).2 := by
  cases c with
  | deliver e endOfBatch =>
      have htrue : endOfBatch = true := hc
      subst htrue
      show ∃ call : AppenderCall, call.pushes = true
        ∧ ((Errand.deliver e true).visit ManagedOutput.ops o t r).2.2 = _
      cases hd : (ManagedOutput.ops (W := W)).denies o e with
      | true =>
          have hcall : (Errand.deliver e true).callOn (ManagedOutput.ops (W := W)) o
              = some .flush := by
            simp [Errand.callOn, hd]
          rw [Errand.visit_some hcall]
          exact ⟨.flush, rfl, rfl⟩
      | false =>
          have hcall : (Errand.deliver e true).callOn (ManagedOutput.ops (W := W)) o
              = some (.append e true) := by
            simp [Errand.callOn, hd]
          rw [Errand.visit_some hcall]
          exact ⟨.append e true, rfl, rfl⟩
  | flush => exact ⟨.flush, rfl, rfl⟩

theorem empty_visit (hc : c.pushes = true) (o : ManagedOutput) (t : Tally) {i : Nat}
    (hi : r.bufferAt i = some .empty) :
    (c.errand.visit ManagedOutput.ops o t r).2.2.bufferAt i = some .empty := by
  obtain ⟨call, hpush, hvisit⟩ := visit_pushes hc o t r
  rw [hvisit]
  exact ManagedOutput.empty_call hpush hi

/-- At the end of a batch the buffers of all open managers of the set are
emptied. -/
theorem emptied_visitAll (hc : c.pushes = true) (members : List ManagedOutput) (t : Tally)
    {r : Registry W} (ho : o ∈ members) (hopen : r.openAt o.handle.outlet = true) :
    (c.errand.visitAll ManagedOutput.ops members t r).2.2.bufferAt o.handle.outlet
      = some .empty := by
  induction members generalizing t r with
  | nil => cases ho
  | cons a rest ih =>
      rw [Errand.visitAll_cons]
      obtain ⟨call, hpush, hvisit⟩ := visit_pushes hc a t r
      rcases List.mem_cons.1 ho with rfl | hrest
      · -- emptied at its turn, and the others' calls leave it empty
        refine Errand.visitAll_keeps
          (P := fun r : Registry W => r.bufferAt o.handle.outlet = some .empty)
          (fun b _ t r hr => empty_visit hc b t hr) _ ?_
        rw [hvisit]
        exact ManagedOutput.emptied_call hpush hopen
      · refine ih _ hrest ?_
        have hdisturbed := ManagedOutput.disturbs_call (.refl [a.handle.outlet] r) call
          (List.mem_singleton_self _)
        rw [hvisit, hdisturbed.openAt]
        exact hopen

end SetCall

-- ============================================================ idle sets

/-- Nothing is buffered for any output of the set. -/
def AppenderSet.Drained (set : AppenderSet ManagedOutput) (r : Registry W) : Prop :=
  ∀ o ∈ set.members, r.bufferAt o.handle.outlet = some .empty

namespace AppenderSet

variable {set : AppenderSet ManagedOutput} {r : Registry W}

theorem state_serve_concat (calls : List SetCall) (c : SetCall) (r : Registry W) :
    (set.serve ManagedOutput.ops (calls ++ [c]) r).state
      = (set.run ManagedOutput.ops c.errand
          (set.serve ManagedOutput.ops calls r).state).state := by
  induction calls generalizing r with
  | nil => rfl
  | cons c' rest ih => exact ih _

/-- If the last call ends a batch, nothing is buffered, whatever came before. -/
theorem drained_serve (hr : set.Drained r) {calls : List SetCall}
    (hlast : calls.getLast?.all SetCall.pushes = true) :
    set.Drained (set.serve ManagedOutput.ops calls r).state := by
  rcases List.eq_nil_or_concat calls with rfl | ⟨init, c, rfl⟩
  · exact hr
  · rw [List.concat_eq_append] at hlast ⊢
    rw [List.getLast?_concat] at hlast
    have hc : c.pushes = true := hlast
    have hserved := disturbs_serve init (Registry.Disturbs.refl set.outlets r)
    intro o ho
    rw [state_serve_concat]
    rcases hserved.bufferAt o.handle.outlet with hsame | ⟨-, hopen⟩
    · exact Errand.visitAll_keeps
        (P := fun r : Registry W => r.bufferAt o.handle.outlet = some .empty)
        (fun b _ t r hr => SetCall.empty_visit hc b t hr) _ (hsame.trans (hr o ho))
    · exact SetCall.emptied_visitAll hc set.members .clean ho
        ((hserved.openAt _).trans hopen)

/-- Once the set is stopped, nothing is buffered. -/
theorem drained_serveOut (hr : set.Drained r) (calls : List SetCall) :
    set.Drained (set.serveOut ManagedOutput.ops calls r).state := by
  intro o ho
  rw [bufferAt_serveOut]
  unfold Registry.settledAt
  split
  · rfl
  · exact hr o ho

end AppenderSet

-- ============================================================== the end

/-- A task after which nothing is to follow ends a batch. -/
theorem Task.pushes_of_settled {tasks : List Task}
    (htasks : ∀ task ∈ tasks, task.isShutdown = false) (hmore : moreAfter tasks = false) :
    (tasks.filterMap setCall?).getLast?.all SetCall.pushes = true := by
  rcases List.eq_nil_or_concat tasks with rfl | ⟨init, task, rfl⟩
  · rfl
  · rw [List.concat_eq_append] at htasks hmore ⊢
    rw [moreAfter_concat] at hmore
    rw [List.filterMap_append]
    cases task with
    | event slot endOfBatch =>
        show ((init.filterMap setCall? ++ [SetCall.deliver slot endOfBatch]).getLast?).all
          SetCall.pushes = true
        rw [List.getLast?_concat]
        show endOfBatch = true
        simpa [leavesMore] using hmore
    | flush =>
        show ((init.filterMap setCall? ++ [SetCall.flush]).getLast?).all SetCall.pushes = true
        rw [List.getLast?_concat]
        rfl
    | shutdown =>
        have := htasks .shutdown (List.mem_append_right _ (List.mem_singleton_self _))
        cases this

/-- Where no call is held up, the tasks go on to a shutdown at the end, if
there is one. -/
theorem Service.shutdown_last {H : Type} {m₀ : Metrics} {l₀ : StatusLog}
    {sv : Service (Noted H)} (hinv : sv.Inv m₀ l₀) (hheld : sv.phase.isHeld = false) :
    ∃ before : List Task, (∀ task ∈ before, task.isShutdown = false)
      ∧ (sv.tasks = before ∨ sv.tasks = before ++ [.shutdown]) := by
  have hplain : ∀ {calls : List HandlerCall}, AllOver calls →
      ∀ task ∈ calls.map (·.task), task.isShutdown = false := by
    intro calls hover task htask
    obtain ⟨c, hc, rfl⟩ := List.mem_map.1 htask
    exact hover.1 c hc
  have hshape := hinv.shape
  cases hp : sv.phase with
  | finished =>
      rw [hp] at hshape
      obtain ⟨init, soFar, o, hover, hcalls⟩ := hshape
      refine ⟨init.map (·.task), hplain hover, .inr ?_⟩
      unfold tasks
      rw [hcalls, List.map_append]
      rfl
  | handling | heldInFlush | heldInStop =>
      rw [hp] at hheld
      cases hheld
  | _ =>
      rw [hp] at hshape
      exact ⟨sv.tasks, hplain hshape, .inl rfl⟩

namespace AppenderSet

/-- What a dispatcher has its handler do leaves nothing buffered, if it
ends with the end of a batch, a flush or the shutdown. -/
theorem drained_replay {set : AppenderSet ManagedOutput} {r : Registry W} (hr : set.Drained r)
    {before tasks : List Task} (hbefore : ∀ task ∈ before, task.isShutdown = false)
    (htasks : tasks = before ∨ tasks = before ++ [.shutdown])
    (hmore : Task.moreAfter tasks = false) :
    set.Drained ((Crew.handler ManagedOutput.ops).replay tasks ⟨set, none, r⟩).world := by
  have hfree : ∀ c o (r : Registry W), ManagedOutput.ops.isHeld c o r = false :=
    fun _ _ _ => rfl
  rcases htasks with rfl | rfl
  · rw [Crew.replay_serve hfree hbefore]
    exact drained_serve hr (Task.pushes_of_settled hbefore hmore)
  · rw [Handler.replay_concat, Crew.replay_serveOut hfree hbefore]
    exact drained_serveOut hr _

/-- Managed outputs whose buffers are empty at first and that are driven by
one dispatcher only: along every run of producers, flush and stop requests
and steps of the dispatcher, whenever the dispatcher has read all there is
to read, the buffer of every output's manager is empty. -/
theorem nothing_stranded (size : Nat) (set : AppenderSet ManagedOutput) (r : Registry W)
    (metrics : Metrics) (status : StatusLog) (hr : set.Drained r) (ops : List ServiceOp) :
    let sv := (Service.start size ⟨metrics, status, ⟨set, none, r⟩⟩).run
      (Crew.handler ManagedOutput.ops) ops
    sv.HasRead → set.Drained sv.shared.handler.world := by
  intro sv hread
  obtain ⟨h, hh⟩ : ∃ h, h = Crew.handler (ManagedOutput.ops (W := W)) := ⟨_, rfl⟩
  have hprompt : h.Prompt := hh ▸ Crew.prompt_handler fun _ _ _ => rfl
  obtain ⟨s₀, hs₀⟩ : ∃ s₀ : Shared (Crew ManagedOutput (Registry W)),
    s₀ = ⟨metrics, status, ⟨set, none, r⟩⟩ := ⟨_, rfl⟩
  -- the same run with notes, of which the calls can be read off
  obtain ⟨nv, hnv⟩ : ∃ nv, nv = (Service.start size s₀.noted).run h.noted ops := ⟨_, rfl⟩
  have hplain : sv = nv.plain := by
    rw [hnv, Service.plain_run h ops (Service.start size s₀.noted), hs₀, hh]
    rfl
  have hinv : nv.Inv s₀.metrics s₀.status :=
    hnv ▸ Service.inv_run h ops (Service.inv_start size s₀)
  have hheld : nv.phase.isHeld = false :=
    hnv ▸ (Service.prompt_run hprompt.noted ops rfl).1
  have hfollowing : nv.Following :=
    hnv ▸ Service.following_run (Service.inv_start size s₀) (Service.following_start size s₀) ops
  have hstate : nv.shared.handler.state = h.replay nv.tasks s₀.handler :=
    hnv ▸ Service.state_run hprompt ops rfl rfl
  rw [hplain] at hread ⊢
  obtain ⟨before, hbefore, htasks⟩ := Service.shutdown_last hinv hheld
  have hmore := Service.last_settles hinv hfollowing hheld hread
  show set.Drained nv.shared.handler.state.world
  rw [hstate, hs₀, hh]
  exact drained_replay hr hbefore htasks hmore

namespace Sample

open Samples (plainly tersely)

/-- A sink that is full. -/
def full : Sink Unit := Samples.sink (.error (.writer "full")) id

def registry : Registry Unit :=
  ⟨#[⟨.new "terse" 64 false, full⟩, ⟨.new "picky" 64 false, full⟩], .empty, ()⟩

/-- A filter that denies events with long messages. -/
def picky : Query → FilterResult
  | .event e => if e.message.formatted.length ≤ 2 then .neutral else .deny
  | _ => .neutral

def outputs : AppenderSet ManagedOutput :=
  ⟨[⟨"terse", ⟨0⟩, tersely, none⟩, ⟨"picky", ⟨1⟩, plainly, some [.custom picky]⟩]⟩

/-- An event is followed by one that no output writes, and that by a
dropped sequence. -/
def published : List ServiceOp :=
  [.produce .claim, .produce .claim, .produce .claim, .produce (.publish 0 (.ofText "ab")),
    .produce (.publish 1 (.ofText "long")), .produce (.abandon 2)]

def after (ops : List ServiceOp) : Service (Crew ManagedOutput (Registry Unit)) :=
  (Service.start 4 ⟨.zero, default, ⟨outputs, none, registry⟩⟩).run
    (Crew.handler ManagedOutput.ops) ops

end Sample

open LogPipeline.AppenderSet.Sample in
/-- The first event is buffered, and the second one, which nobody writes,
sends it on. -/
theorem nothing_stranded_sample :
    outputs.Drained registry
      ∧ ((after (published ++ [.step, .step])).shared.handler.world.bufferAt 0).any
          (·.size == 2) = true
      ∧ outputs.Drained
          (after (published ++ [.step, .step, .step])).shared.handler.world := by
  have hr : outputs.Drained registry := by
    intro o ho
    rcases List.mem_cons.1 ho with rfl | ho
    · rfl
    · rw [List.mem_singleton.1 ho]
      rfl
  refine ⟨hr, by decide +kernel, ?_⟩
  exact nothing_stranded 4 outputs registry .zero default hr _ (.inr (by decide +kernel))

end AppenderSet

end LogPipeline
