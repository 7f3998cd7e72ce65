/-
A dispatcher does nothing to its handler but call it, and of what it
shares it looks at nothing else (`Dispatcher.alike_step`). With a handler
whose calls all end, the handler's state at any moment is that of a
handler that was called for the same tasks in the same order, without any
dispatcher (`state_run`); and when a dispatcher has finished and left
nothing behind, the tasks are the events that were published under the
sequences of its ring, one after another, flushes in between, and one
shutdown at the end (`Service.replayed`).
-/
import LogPipeline.Proofs.Dispatcher.Shutdown
import LogPipeline.Proofs.Ring.Published

namespace LogPipeline

-- ============================================================== replay

namespace Handler

variable {H : Type}

/-- The call that a task makes. -/
def answer (h : Handler H) (task : Task) (s : H) : Call H :=
  match task with
  | .event slot endOfBatch => h.onEvent slot endOfBatch s
  | .flush => h.onFlush s
  | .shutdown => h.onShutdown s

/-- The state that calls leave behind, one after another. -/
def replay (h : Handler H) (tasks : List Task) (s : H) : H :=
  tasks.foldl (fun s task => (h.answer task s).state) s

/-- One more task is answered from where the others lead. -/
theorem replay_concat (h : Handler H) (tasks : List Task) (task : Task) (s : H) :
    h.replay (tasks ++ [task]) s = (h.answer task (h.replay tasks s)).state := by
  unfold replay
  rw [List.foldl_append]
  rfl

end Handler

namespace Dispatcher

variable {H : Type} {h : Handler H} {d d' : Dispatcher} {s s' s₁ s₂ : Shared H}

/-- After an event the handler is as the call left it. -/
theorem handler_afterEvent (x : Call H) (d : Dispatcher) (s : Shared H) :
    (afterEvent x d s).2.handler = x.state := by
  unfold afterEvent
  cases x.outcome <;> rfl

theorem handler_afterFlush (handled : Bool) (ticket : Nat) (x : Call H) (d : Dispatcher)
    (s : Shared H) : (afterFlush handled ticket x d s).2.handler = x.state := by
  unfold afterFlush
  cases x.outcome <;> rfl

theorem handler_afterStop (x : Call H) (d : Dispatcher) (s : Shared H) :
    (afterStop x d s).2.handler = x.state := by
  unfold afterStop
  cases x.outcome <;> rfl

/-- A step calls the handler once, or not at all. -/
theorem handler_step (hheld : d.phase.isHeld = false) (hs : step h d s = some (d', s')) :
    s'.handler = s.handler ∨ ∃ task, s'.handler = (h.answer task s.handler).state := by
  cases stepped_of_step hs with
  | @event handled e ring _ _ _ _ hafter =>
      have hs' : s' = _ := (congrArg Prod.snd hafter).symm
      exact .inr ⟨.event e.slot e.endOfBatch, by rw [hs', handler_afterEvent]; rfl⟩
  | flush _ hafter =>
      have hs' : s' = _ := (congrArg Prod.snd hafter).symm
      exact .inr ⟨.flush, by rw [hs', handler_afterFlush]; rfl⟩
  | stop _ hafter =>
      have hs' : s' = _ := (congrArg Prod.snd hafter).symm
      exact .inr ⟨.shutdown, by rw [hs', handler_afterStop]; rfl⟩
  | eventOn hphase | flushOn hphase | stopOn hphase =>
      rw [hphase] at hheld
      cases hheld
  | _ => exact .inl rfl

-- ====================================================== what is not seen

/-- The same handler, beside other metrics and another status log. What is
published is counted by others, and stays as it is. -/
structure Alike (s₁ s₂ : Shared H) (o₁ o₂ : Dispatcher × Shared H) : Prop where
  dispatcher : o₁.1 = o₂.1
  handler : o₁.2.handler = o₂.2.handler
  published : o₁.2.metrics.published = s₁.metrics.published
    ∧ o₂.2.metrics.published = s₂.metrics.published

/-- What a dispatcher makes of the end of an event does not depend on the
metrics, nor on the status log. -/
theorem alike_afterEvent (x : Call H) (d : Dispatcher) (s₁ s₂ : Shared H) :
    Alike s₁ s₂ (afterEvent x d s₁) (afterEvent x d s₂) := by
  unfold afterEvent
  cases x.outcome with
  | none => exact ⟨rfl, rfl, rfl, rfl⟩
  | some o => cases o <;> exact ⟨rfl, rfl, rfl, rfl⟩

theorem alike_afterFlush (handled : Bool) (ticket : Nat) (x : Call H) (d : Dispatcher)
    (s₁ s₂ : Shared H) :
    Alike s₁ s₂ (afterFlush handled ticket x d s₁) (afterFlush handled ticket x d s₂) := by
  unfold afterFlush
  cases x.outcome <;> exact ⟨rfl, rfl, rfl, rfl⟩

theorem alike_afterStop (x : Call H) (d : Dispatcher) (s₁ s₂ : Shared H) :
    Alike s₁ s₂ (afterStop x d s₁) (afterStop x d s₂) := by
  unfold afterStop
  cases x.outcome <;> exact ⟨rfl, rfl, rfl, rfl⟩

/-- A step looks at the handler, and at nothing else that is shared. -/
theorem alike_step (hs : s₁.handler = s₂.handler) {o₁ : Dispatcher × Shared H}
    (ho₁ : step h d s₁ = some o₁) :
    ∃ o₂, step h d s₂ = some o₂ ∧ Alike s₁ s₂ o₁ o₂ := by
  have hstep : ∀ {d' : Dispatcher} {t₁ t₂ : Shared H}, Stepped h d s₂ d' t₂ →
      Alike s₁ s₂ (d', t₁) (d', t₂) → ∃ o₂, step h d s₂ = some o₂ ∧ Alike s₁ s₂ (d', t₁) o₂ :=
    fun hstepped halike => ⟨_, hstepped.step_eq, halike⟩
  -- what becomes of a call is the same
  have hcall : ∀ {d' : Dispatcher} {t₁ : Shared H} {f : Shared H → Dispatcher × Shared H},
      (∀ t₂, f s₂ = (d', t₂) → Stepped h d s₂ d' t₂) → Alike s₁ s₂ (f s₁) (f s₂) →
        f s₁ = (d', t₁) → ∃ o₂, step h d s₂ = some o₂ ∧ Alike s₁ s₂ (d', t₁) o₂ := by
    intro d' t₁ f hf halike hafter
    rw [hafter] at halike
    have hd : (f s₂).1 = d' := halike.dispatcher.symm
    exact ⟨f s₂, (hf _ (Prod.ext hd rfl)).step_eq.trans (by rw [← hd]), halike⟩
  obtain ⟨d', t₁⟩ := o₁
  cases stepped_of_step ho₁ with
  | close hphase hbusy hstop hclosed =>
      exact hstep (.close hphase hbusy hstop hclosed) ⟨rfl, hs, rfl, rfl⟩
  | drain hphase hbusy hstay => exact hstep (.drain hphase hbusy hstay) ⟨rfl, hs, rfl, rfl⟩
  | dry hphase hnext => exact hstep (.dry hphase hnext) ⟨rfl, hs, rfl, rfl⟩
  | @event handled e ring _ _ hphase hnext hafter =>
      rw [hs] at hafter
      refine hcall (f := fun t => afterEvent (h.onEvent e.slot e.endOfBatch s₂.handler)
        { d with ring } (t.counted e.endOfBatch)) (fun _ => .event hphase hnext) ?_ hafter
      have halike := alike_afterEvent (h.onEvent e.slot e.endOfBatch s₂.handler)
        { d with ring } (s₁.counted e.endOfBatch) (s₂.counted e.endOfBatch)
      cases hlast : e.endOfBatch <;> rw [hlast] at halike <;>
        exact ⟨halike.dispatcher, halike.handler, halike.published⟩
  | eventOn hphase hc hafter =>
      rw [hs] at hc
      exact hcall (fun _ => .eventOn hphase hc) (alike_afterEvent _ d s₁ s₂) hafter
  | due hphase hdue => exact hstep (.due hphase hdue) ⟨rfl, hs, rfl, rfl⟩
  | undue hphase hundue => exact hstep (.undue hphase hundue) ⟨rfl, hs, rfl, rfl⟩
  | flush hphase hafter =>
      rw [hs] at hafter
      exact hcall (fun _ => .flush hphase) (alike_afterFlush _ _ _ d s₁ s₂) hafter
  | flushOn hphase hc hafter =>
      rw [hs] at hc
      exact hcall (fun _ => .flushOn hphase hc) (alike_afterFlush _ _ _ d s₁ s₂) hafter
  | store hphase => exact hstep (.store hphase) ⟨rfl, hs, rfl, rfl⟩
  | again hphase hmore => exact hstep (.again hphase hmore) ⟨rfl, hs, rfl, rfl⟩
  | leave hphase hclosed hup => exact hstep (.leave hphase hclosed hup) ⟨rfl, hs, rfl, rfl⟩
  | giveUp hphase hclosed hbehind hexpired =>
      exact hstep (.giveUp hphase hclosed hbehind hexpired) ⟨rfl, hs, rfl, rfl⟩
  | depart hphase => exact hstep (.depart hphase) ⟨rfl, hs, rfl, rfl⟩
  | stop hphase hafter =>
      rw [hs] at hafter
      exact hcall (fun _ => .stop hphase) (alike_afterStop _ d s₁ s₂) hafter
  | stopOn hphase hc hafter =>
      rw [hs] at hc
      exact hcall (fun _ => .stopOn hphase hc) (alike_afterStop _ d s₁ s₂) hafter

/-- So does a dispatcher that goes on until it rests. -/
theorem alike_settleFor (hs : s₁.handler = s₂.handler) (n : Nat) :
    Alike s₁ s₂ (settleFor h n d s₁) (settleFor h n d s₂) := by
  induction n generalizing d s₁ s₂ with
  | zero => exact ⟨rfl, hs, rfl, rfl⟩
  | succ n ih =>
      unfold settleFor
      cases ho₁ : step h d s₁ with
      | none =>
          cases ho₂ : step h d s₂ with
          | none => exact ⟨rfl, hs, rfl, rfl⟩
          | some o₂ =>
              obtain ⟨o₁, hsome, -⟩ := alike_step hs.symm ho₂
              rw [ho₁] at hsome
              cases hsome
      | some o₁ =>
          obtain ⟨o₂, ho₂, hstep⟩ := alike_step hs ho₁
          rw [ho₂]
          obtain ⟨d₁, t₁⟩ := o₁
          obtain ⟨d₂, t₂⟩ := o₂
          have hd : d₁ = d₂ := hstep.dispatcher
          subst hd
          have hrest := @ih d₁ t₁ t₂ hstep.handler
          exact ⟨hrest.dispatcher, hrest.handler, hrest.published.1.trans hstep.published.1,
            hrest.published.2.trans hstep.published.2⟩

/-- The end of a call does not detach the dispatcher from its owner. -/
theorem attached_afterEvent (x : Call H) (d : Dispatcher) (s : Shared H) :
    (afterEvent x d s).1.attached = d.attached := by
  unfold afterEvent
  cases x.outcome <;> rfl

theorem attached_afterFlush (handled : Bool) (ticket : Nat) (x : Call H) (d : Dispatcher)
    (s : Shared H) : (afterFlush handled ticket x d s).1.attached = d.attached := by
  unfold afterFlush
  cases x.outcome <;> rfl

theorem attached_afterStop (x : Call H) (d : Dispatcher) (s : Shared H) :
    (afterStop x d s).1.attached = d.attached := by
  unfold afterStop
  cases x.outcome <;> rfl

/-- A dispatcher does not let go of itself. -/
theorem attached_step (hs : step h d s = some (d', s')) : d'.attached = d.attached := by
  cases stepped_of_step hs with
  | event _ _ hafter | eventOn _ _ hafter =>
      exact (congrArg (·.1.attached) hafter).symm.trans (attached_afterEvent _ _ _)
  | flush _ hafter | flushOn _ _ hafter =>
      exact (congrArg (·.1.attached) hafter).symm.trans (attached_afterFlush _ _ _ _ _)
  | stop _ hafter | stopOn _ _ hafter =>
      exact (congrArg (·.1.attached) hafter).symm.trans (attached_afterStop _ _ _)
  | _ => rfl

end Dispatcher

-- ================================================================ runs

namespace Service

variable {H : Type} {h : Handler H} {sv : Service (Noted H)} {s₀ : H}

/-- The tasks that the handler was called for. -/
def tasks (sv : Service (Noted H)) : List Task := sv.calls.map (·.task)

/-- A call leaves the handler in the state it comes to, and is noted. -/
theorem answer_noted (h : Handler H) (task : Task) (n : Noted H) :
    (h.noted.answer task n).state.state = (h.answer task n.state).state
      ∧ (h.noted.answer task n).state.calls.map (·.task) = n.calls.map (·.task) ++ [task] := by
  cases task <;> exact ⟨rfl, List.map_append⟩

/-- A step that is not held up keeps the handler where the tasks so far lead
it. -/
theorem state_step (hheld : sv.phase.isHeld = false) (op : ServiceOp)
    (hstate : sv.shared.handler.state = h.replay sv.tasks s₀) :
    (sv.step h.noted op).shared.handler.state
      = h.replay (sv.step h.noted op).tasks s₀ := by
  cases op with
  | step =>
      simp only [step]
      split
      · exact hstate
      · next d s hs =>
        show s.handler.state = h.replay (s.handler.calls.map (·.task)) s₀
        rcases Dispatcher.handler_step hheld hs with heq | ⟨task, heq⟩
        · rw [heq]
          exact hstate
        · obtain ⟨hanswer, htasks⟩ := answer_noted h task sv.shared.handler
          rw [heq, hanswer, htasks, Handler.replay_concat, hstate]
          rfl
  | arrive =>
      simp only [step]
      split <;> exact hstate
  | draw =>
      simp only [step]
      split <;> exact hstate
  | _ => exact hstate

/-- Along every run the handler's state is that of its calls replayed. -/
theorem state_run (hp : h.Prompt) (ops : List ServiceOp) (hheld : sv.phase.isHeld = false)
    (hstate : sv.shared.handler.state = h.replay sv.tasks s₀) :
    (sv.run h.noted ops).shared.handler.state
      = h.replay (sv.run h.noted ops).tasks s₀ := by
  induction ops generalizing sv with
  | nil => exact hstate
  | cons op rest ih =>
      have hheld' : (sv.step h.noted op).phase.isHeld = false :=
        (prompt_run hp.noted [op] hheld).1
      exact ih hheld' (state_step hheld op hstate)

/-- The record fits the ring along every run. -/
theorem tracks_run (h : Handler H) (size : Nat) (s₀ : Shared H) (steps : List ServiceOp) :
    ((start size s₀).run h steps).ring.Tracks ((start size s₀).run h steps).fates := by
  have htracks := (inv_run h steps (inv_start size s₀)).tracks
  have hplain : (start size s₀).run h steps
      = ((start size s₀.noted).run h.noted steps).plain :=
    (plain_run h steps (start size s₀.noted)).symm
  rw [hplain]
  exact htracks

/-- The dispatcher's own steps do nothing to the record. -/
theorem fates_steps (h : Handler H) (n : Nat) (sv : Service H) :
    (sv.run h (List.replicate n .step)).fates = sv.fates
      ∧ (sv.run h (List.replicate n .step)).dispatcher.attached = sv.dispatcher.attached := by
  induction n generalizing sv with
  | zero => exact ⟨rfl, rfl⟩
  | succ n ih =>
      have hstep : (sv.step h .step).fates = sv.fates
          ∧ (sv.step h .step).dispatcher.attached = sv.dispatcher.attached := by
        simp only [step]
        split
        · exact ⟨rfl, rfl⟩
        · next d s hs => exact ⟨rfl, Dispatcher.attached_step hs⟩
      obtain ⟨hfates, hattached⟩ := ih (sv.step h .step)
      exact ⟨hfates.trans hstep.1, hattached.trans hstep.2⟩

/-- Where nothing was left behind, the handler was shown all that was
published before it was shut down. -/
theorem Settled.shown {s₀ : Shared H} (h : sv.Settled s₀) (hclean : sv.dispatcher.abandoned = 0) :
    ∃ before reports o, sv.calls = before ++ [⟨.shutdown, reports, some o⟩] ∧ AllOver before
      ∧ shownEvents before = sv.fates.published.map EventSlot.ofValues := by
  obtain ⟨before, reports, o, hcalls, hover⟩ := h.shutDown
  refine ⟨before, reports, o, hcalls, hover, ?_⟩
  have hshown := h.given
  rw [hcalls, shownEvents_concat] at hshown
  have hmute : ∀ s f, sv.ring.consumed ≤ s → sv.fates[s]? = some f → f.isMute = true := by
    intro s f hs hf
    have hs' : sv.ring.consumed + sv.dispatcher.abandoned ≤ s := by
      rw [hclean]
      exact hs
    exact h.mute s hs' f hf
  rw [← Fates.map_eventsBelow_of_mute hmute, ← hshown]
  exact (List.append_nil _).symm

/-- A dispatcher that has finished and left nothing behind has had its
handler called for everything that was published, in order, and for a
shutdown at the end. -/
theorem replayed (hp : h.Prompt) (size : Nat) (s₀ : Shared H) (ops : List ServiceOp) :
    let sv := (start size s₀.noted).run h.noted ops
    sv.dispatcher.isFinished = true → sv.dispatcher.abandoned = 0 →
      ∃ before : List HandlerCall, NoShutdown before
        ∧ shownEvents before = sv.fates.published.map EventSlot.ofValues
        ∧ sv.shared.handler.state
          = (h.answer .shutdown (h.replay (before.map (·.task)) s₀.handler)).state := by
  intro sv hfinished hclean
  have hsettled := settled_of_finished (inv_run h ops (inv_start size s₀)) hfinished
  obtain ⟨before, reports, o, hcalls, hover, hshown⟩ := hsettled.shown hclean
  refine ⟨before, hover.1, hshown, ?_⟩
  have hstate : sv.shared.handler.state = h.replay sv.tasks s₀.handler :=
      @state_run H h (start size s₀.noted) s₀.handler hp ops rfl rfl
  have htasks : sv.tasks = before.map (·.task) ++ [.shutdown] := by
    unfold tasks
    rw [hcalls, List.map_append]
    rfl
  rw [hstate, htasks, Handler.replay_concat]

end Service

end LogPipeline
