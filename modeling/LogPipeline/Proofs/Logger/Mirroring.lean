/-
Two loggers side by side. One may have counted more events as filtered,
and its appenders may act on another kind of state, in the same way
(`AppenderOps.Mirror`). Nothing that a logger does looks at either, so
whatever happens to both leaves them as they were (`mirrored_actAll`).

This goes up layer by layer: the calls of a handler, the steps of the
dispatcher that makes them, the methods of the logger, and its moves.
-/
import LogPipeline.Proofs.Appender.Recording
import LogPipeline.Proofs.Logger.Moves

namespace LogPipeline

/-- More events are counted as filtered. -/
def Metrics.more (k : Nat) (m : Metrics) : Metrics := { m with filtered := m.filtered + k }

/-- What was counted beforehand does not depend on what is counted now. -/
theorem Metrics.count_more (k : Nat) (m : Metrics) (c : Counter) :
    (m.more k).count c = (m.count c).more k := by
  cases c <;> simp [count, more, Nat.add_right_comm]

-- ============================================================= handlers

section

variable {H H' : Type} {Q : H → H' → Prop}

/-- Two calls come to the same, and leave related states. -/
structure Call.Mirrored (Q : H → H' → Prop) (x : Call H) (x' : Call H') : Prop where
  outcome_eq : x'.outcome = x.outcome
  reports_eq : x'.reports = x.reports
  state : Q x.state x'.state

/-- Two handlers answer alike, and keep their states related. -/
structure Handler.Mirror (h : Handler H) (h' : Handler H') (Q : H → H' → Prop) : Prop where
  onEvent : ∀ slot endOfBatch s s', Q s s' →
    (h.onEvent slot endOfBatch s).Mirrored Q (h'.onEvent slot endOfBatch s')
  onFlush : ∀ s s', Q s s' → (h.onFlush s).Mirrored Q (h'.onFlush s')
  onShutdown : ∀ s s', Q s s' → (h.onShutdown s).Mirrored Q (h'.onShutdown s')
  resume : ∀ s s', Q s s' → Option.Rel (Call.Mirrored Q) (h.resume s) (h'.resume s')

structure Shared.Mirrored (Q : H → H' → Prop) (k : Nat) (s : Shared H) (s' : Shared H') :
    Prop where
  metrics_eq : s'.metrics = s.metrics.more k
  status_eq : s'.status = s.status
  handler : Q s.handler s'.handler

namespace Dispatcher

structure Mirrored (Q : H → H' → Prop) (k : Nat) (o : Dispatcher × Shared H)
    (o' : Dispatcher × Shared H') : Prop where
  dispatcher_eq : o'.1 = o.1
  shared : o.2.Mirrored Q k o'.2

variable {h : Handler H} {h' : Handler H'} {k : Nat} {s : Shared H} {s' : Shared H'}
  {x : Call H} {x' : Call H'}

/-- Outcomes that mirror each other are taken in alike. -/
theorem mirrored_absorb (hx : x.Mirrored Q x') (hs : s.Mirrored Q k s') :
    (absorb x s).Mirrored Q k (absorb x' s') where
  metrics_eq := hs.metrics_eq
  status_eq := by
    show s'.status.logAll x'.reports = s.status.logAll x.reports
    rw [hs.status_eq, hx.reports_eq]
  handler := hx.state

/-- Reports go to both status logs. -/
theorem mirrored_report (entries : List StatusEntry) (hs : s.Mirrored Q k s') :
    (report entries s).Mirrored Q k (report entries s') :=
  { hs with status_eq := congrArg (StatusLog.logAll · entries) hs.status_eq }

/-- One more is counted on both sides. -/
theorem mirrored_count (c : Counter) (hs : s.Mirrored Q k s') :
    Shared.Mirrored Q k { s with metrics := s.metrics.count c }
      { s' with metrics := s'.metrics.count c } :=
  { hs with
    metrics_eq := (congrArg (Metrics.count · c) hs.metrics_eq).trans (Metrics.count_more ..) }

/-- What follows an event is decided by its outcome, which is the same. -/
theorem mirrored_afterEvent (d : Dispatcher) (hx : x.Mirrored Q x') (hs : s.Mirrored Q k s') :
    Mirrored Q k (afterEvent x d s) (afterEvent x' d s') := by
  have habsorbed := mirrored_absorb hx hs
  unfold afterEvent
  rw [hx.outcome_eq]
  cases x.outcome with
  | none => exact ⟨rfl, habsorbed⟩
  | some o => exact ⟨rfl, mirrored_report _ (mirrored_count _ habsorbed)⟩

/-- What follows a flush is decided by its outcome and its ticket. -/
theorem mirrored_afterFlush (handled : Bool) (ticket : Nat) (d : Dispatcher)
    (hx : x.Mirrored Q x') (hs : s.Mirrored Q k s') :
    Mirrored Q k (afterFlush handled ticket x d s) (afterFlush handled ticket x' d s') := by
  have habsorbed := mirrored_absorb hx hs
  unfold afterFlush
  rw [hx.outcome_eq]
  cases x.outcome with
  | none => exact ⟨rfl, habsorbed⟩
  | some o => exact ⟨rfl, mirrored_report _ habsorbed⟩

/-- What follows a stop is decided by its outcome. -/
theorem mirrored_afterStop (d : Dispatcher) (hx : x.Mirrored Q x') (hs : s.Mirrored Q k s') :
    Mirrored Q k (afterStop x d s) (afterStop x' d s') := by
  have habsorbed := mirrored_absorb hx hs
  unfold afterStop
  rw [hx.outcome_eq]
  cases x.outcome with
  | none => exact ⟨rfl, habsorbed⟩
  | some o => exact ⟨rfl, mirrored_report _ habsorbed⟩

/-- Calls that go on go on alike. -/
theorem mirrored_resume (hh : h.Mirror h' Q) (hs : s.Mirrored Q k s')
    {f : Call H → Dispatcher × Shared H} {f' : Call H' → Dispatcher × Shared H'}
    (hf : ∀ x x', x.Mirrored Q x' → Mirrored Q k (f x) (f' x')) :
    Option.Rel (Mirrored Q k) ((h.resume s.handler).map f) ((h'.resume s'.handler).map f') := by
  have hresumed := hh.resume _ _ hs.handler
  generalize h.resume s.handler = x at hresumed ⊢
  generalize h'.resume s'.handler = x' at hresumed ⊢
  cases hresumed with
  | some hx => exact .some (hf _ _ hx)
  | none => exact .none

/-- Two dispatchers that stand in the same place take the same step. -/
theorem mirrored_step (hh : h.Mirror h' Q) (d : Dispatcher) (hs : s.Mirrored Q k s') :
    Option.Rel (Mirrored Q k) (step h d s) (step h' d s') := by
  cases hphase : d.phase with
  | top =>
      simp only [step, hphase]
      split
      · exact .none
      · split <;> exact .some ⟨rfl, hs⟩
  | draining handled =>
      simp only [step, hphase]
      split
      · exact .some ⟨rfl, hs⟩
      · next e r _ =>
        obtain ⟨s₁, hs₁⟩ : ∃ s₁, s₁ = if e.endOfBatch then
          { s with metrics := s.metrics.count .endOfBatch } else s := ⟨_, rfl⟩
        obtain ⟨s₁', hs₁'⟩ : ∃ s₁', s₁' = if e.endOfBatch then
          { s' with metrics := s'.metrics.count .endOfBatch } else s' := ⟨_, rfl⟩
        -- an event that ends a batch is counted before the handler has it
        have hcounted : s₁.Mirrored Q k s₁' := by
          rw [hs₁, hs₁']
          split
          · exact mirrored_count .endOfBatch hs
          · exact hs
        rw [← hs₁, ← hs₁']
        exact .some (mirrored_afterEvent _ (hh.onEvent _ _ _ _ hcounted.handler) hcounted)
  | handling =>
      simp only [step, hphase]
      exact mirrored_resume hh hs fun x x' hx => mirrored_afterEvent d hx hs
  | checking handled =>
      simp only [step, hphase]
      split <;> exact .some ⟨rfl, hs⟩
  | flushing handled ticket =>
      simp only [step, hphase]
      exact .some (mirrored_afterFlush handled ticket d (hh.onFlush _ _ hs.handler) hs)
  | heldInFlush handled ticket =>
      simp only [step, hphase]
      exact mirrored_resume hh hs fun x x' hx => mirrored_afterFlush handled ticket d hx hs
  | storing handled ticket | leaving =>
      simp only [step, hphase]
      exact .some ⟨rfl, hs⟩
  | deciding handled =>
      simp only [step, hphase]
      split
      · exact .some ⟨rfl, hs⟩
      · split
        · exact .some ⟨rfl, hs⟩
        -- up to date, given up, or another pass
        · split
          · exact .some ⟨rfl, mirrored_report _ hs⟩
          · exact .some ⟨rfl, hs⟩
  | stopping =>
      simp only [step, hphase]
      exact .some (mirrored_afterStop d (hh.onShutdown _ _ hs.handler) hs)
  | heldInStop =>
      simp only [step, hphase]
      exact mirrored_resume hh hs fun x x' hx => mirrored_afterStop d hx hs
  | finished =>
      simp only [step, hphase]
      exact .none

/-- So they go on alike, however far. -/
theorem mirrored_settleFor (hh : h.Mirror h' Q) (n : Nat) (d : Dispatcher)
    (hs : s.Mirrored Q k s') : Mirrored Q k (settleFor h n d s) (settleFor h' n d s') := by
  induction n generalizing d s s' with
  | zero => exact ⟨rfl, hs⟩
  | succ n ih =>
      have hstep := mirrored_step hh d hs
      unfold settleFor
      cases ho : step h d s with
      | none =>
          rw [ho] at hstep
          cases ho' : step h' d s' with
          | none => exact ⟨rfl, hs⟩
          | some o' =>
              rw [ho'] at hstep
              cases hstep
      | some o =>
          rw [ho] at hstep
          cases ho' : step h' d s' with
          | none =>
              rw [ho'] at hstep
              cases hstep
          | some o' =>
              rw [ho'] at hstep
              obtain ⟨d₁, s₁⟩ := o
              obtain ⟨d₁', s₁'⟩ := o'
              cases hstep with
              | some hrel =>
                  obtain ⟨rfl, hs₁⟩ := hrel
                  exact ih d₁' hs₁

end Dispatcher

end

variable {α S T : Type} {ops : AppenderOps α S} {ops' : AppenderOps α T} {R : S → T → Prop}
  {k : Nat}

-- ================================================================ crews

namespace Crew

/-- The same set, held up in the same round, on related states. -/
structure Mirrored (R : S → T → Prop) (c : Crew α S) (c' : Crew α T) : Prop where
  set_eq : c'.set = c.set
  round_eq : c'.round = c.round
  world : R c.world c'.world

/-- A round that is over is told alike, if it has come to the same and
reported the same. -/
theorem mirrored_told (errand : Errand) (size : Nat) (set : AppenderSet α)
    {x : Progress α × List StatusEntry × S} {x' : Progress α × List StatusEntry × T}
    (hprogress : x'.1 = x.1) (hreports : x'.2.1 = x.2.1) (hworld : R x.2.2 x'.2.2) :
    (told errand size set x).Mirrored (Mirrored R) (told errand size set x') := by
  obtain ⟨p, reports, s⟩ := x
  obtain ⟨p', reports', s'⟩ := x'
  obtain rfl : p' = p := hprogress
  obtain rfl : reports' = reports := hreports
  cases p' with
  | ended t => exact ⟨rfl, rfl, rfl, rfl, hworld⟩
  | held r => exact ⟨rfl, rfl, rfl, rfl, hworld⟩

/-- Rounds begin alike on crews that mirror each other. -/
theorem mirrored_begin (h : ops.Mirror ops' R) (errand : Errand) (after : AppenderSet α)
    {c : Crew α S} {c' : Crew α T} (hc : c.Mirrored R c') :
    (begin ops errand after c).Mirrored (Mirrored R) (begin ops' errand after c') := by
  obtain ⟨hprogress, hreports, hworld⟩ :=
    h.advance errand c.set.size c.set.members .clean hc.world
  unfold begin
  rw [hc.set_eq]
  exact mirrored_told errand _ after hprogress hreports hworld

/-- A round goes on if its member is held up no longer. -/
theorem mirrored_resume (h : ops.Mirror ops' R) {c : Crew α S} {c' : Crew α T}
    (hc : c.Mirrored R c') :
    Option.Rel (Call.Mirrored (Mirrored R)) (resume ops c) (resume ops' c') := by
  unfold resume
  rw [hc.round_eq, hc.set_eq]
  cases c.round with
  | none => exact .none
  | some r =>
      dsimp only
      rw [h.isHeld r.call r.member _ _ hc.world]
      split
      · exact .none
      · obtain ⟨htally, hreports, hworld⟩ := h.conclude r.errand r.call r.member r.tally hc.world
        rw [htally, hreports]
        obtain ⟨hprogress, hothers, hworld'⟩ := h.advance r.errand r.size r.rest
          (r.errand.conclude ops r.call r.member r.tally c.world).1 hworld
        exact .some (mirrored_told r.errand r.size c.set hprogress (congrArg _ hothers) hworld')

/-- Appenders that behave alike make handlers that do. -/
theorem mirror_handler (h : ops.Mirror ops' R) :
    (handler ops).Mirror (handler ops') (Mirrored R) where
  onEvent slot endOfBatch c c' hc := by
    show (begin ops (.deliver slot endOfBatch) c.set c).Mirrored (Mirrored R)
      (begin ops' (.deliver slot endOfBatch) c'.set c')
    rw [hc.set_eq]
    exact mirrored_begin h _ c.set hc
  onFlush c c' hc := by
    show (begin ops .flush c.set c).Mirrored (Mirrored R) (begin ops' .flush c'.set c')
    rw [hc.set_eq]
    exact mirrored_begin h _ c.set hc
  onShutdown c c' hc := mirrored_begin h .stop ⟨[]⟩ hc
  resume c c' hc := mirrored_resume h hc

end Crew

-- ============================================================== loggers

structure Site.Mirrored (R : S → T → Prop) (site : Site S) (site' : Site T) : Prop where
  status_eq : site'.status = site.status
  world : R site.world site'.world

namespace Site.Mirrored

variable {site : Site S} {site' : Site T}

theorem report (h : site.Mirrored R site') (entries : List StatusEntry) :
    (site.report entries).Mirrored R (site'.report entries) :=
  ⟨congrArg (StatusLog.logAll · entries) h.status_eq, h.world⟩

/-- Errands come to the same. -/
theorem absorb (h : site.Mirrored R site') {r : ErrandResult S} {r' : ErrandResult T}
    (hreports : r'.reports = r.reports) (hstate : R r.state r'.state) :
    (site.absorb r).Mirrored R (site'.absorb r') := by
  refine ⟨?_, hstate⟩
  show site'.status.logAll r'.reports = site.status.logAll r.reports
  rw [h.status_eq, hreports]

end Site.Mirrored

namespace Logger

/-- More events are counted as filtered. -/
def more (k : Nat) (l : Logger α) : Logger α := { l with metrics := l.metrics.more k }

variable {l : Logger α} {site : Site S} {site' : Site T}

@[simp] theorem backend_more (l : Logger α) : (l.more k).backend = l.backend := rfl

@[simp] theorem accepting_more (l : Logger α) : (l.more k).accepting = l.accepting := rfl

@[simp] theorem waiters_more (l : Logger α) : (l.more k).waiters = l.waiters := rfl

/-- Counting on top of what was counted beforehand is the same in either
order. -/
theorem count_more (c : Counter) (l : Logger α) : (l.more k).count c = (l.count c).more k :=
  congrArg (fun m => ({ l with metrics := m } : Logger α)) (Metrics.count_more k l.metrics c)

/-- The dispatcher does not see the counters of its logger. -/
theorem onDispatcher_more (f : Dispatcher → Dispatcher) (l : Logger α) :
    (l.more k).onDispatcher f = (l.onDispatcher f).more k := by
  obtain ⟨settings, backend, accepting, clean, metrics, waiters⟩ := l
  cases backend <;> rfl

theorem retryWaiter_more (w : Ring.Waiter) (l : Logger α) :
    (l.more k).retryWaiter w = (l.retryWaiter w).more k := by
  unfold retryWaiter
  rw [backend_more]
  cases l.backend with
  | sync work => rfl
  | async d set round =>
      dsimp only
      rcases d.ring.retry w with ⟨_ | _ | _, ring⟩ <;> rfl

/-- Callers that wait do not see them either. -/
theorem retryWaiters_more (l : Logger α) : (l.more k).retryWaiters = l.retryWaiters.more k := by
  have hfold : ∀ (ws : List Ring.Waiter) (l : Logger α),
      ws.foldl retryWaiter (l.more k) = (ws.foldl retryWaiter l).more k := by
    intro ws
    induction ws with
    | nil => exact fun l => rfl
    | cons w rest ih =>
        intro l
        rw [List.foldl_cons, List.foldl_cons, retryWaiter_more, ih]
  exact hfold l.waiters { l with waiters := [] }

theorem retryAt_more (i : Nat) (l : Logger α) : (l.more k).retryAt i = (l.retryAt i).more k := by
  unfold retryAt
  rw [waiters_more]
  cases l.waiters[i]? with
  | none => rfl
  | some w => exact retryWaiter_more w { l with waiters := l.waiters.eraseIdx i }

/-- An event finds room or has to wait, whatever was counted beforehand. -/
theorem publishAsync_more (v : EventValues) (d : Dispatcher) (set : AppenderSet α)
    (round : Option (Round α)) (l : Logger α) :
    publishAsync v d set round (l.more k) = (publishAsync v d set round l).more k := by
  unfold publishAsync
  cases d.ring.reserve with
  | none => rfl
  | some o =>
      dsimp only
      rcases o.2.confirm o.1 with ⟨_ | _ | _, ring⟩ <;> rfl

/-- Two loggers that differ at most in what they have counted as filtered, on
related sites. -/
structure Mirrored (R : S → T → Prop) (k : Nat) (o : Logger α × Site S)
    (o' : Logger α × Site T) : Prop where
  logger_eq : o'.1 = o.1.more k
  site : o.2.Mirrored R o'.2

/-- Two answers are the same, and so are the loggers that gave them. -/
structure Answered {β : Type} (R : S → T → Prop) (k : Nat) (o : β × Logger α × Site S)
    (o' : β × Logger α × Site T) : Prop where
  answer_eq : o'.1 = o.1
  logger : Mirrored R k o.2 o'.2

-- =========================================================== each method

/-- A synchronous logger delivers alike to sets that mirror each other. -/
theorem mirrored_publishSync (h : ops.Mirror ops' R) (v : EventValues) (slot : EventSlot)
    (set : AppenderSet α) (l : Logger α) (hs : site.Mirrored R site') :
    Mirrored R k (publishSync ops v slot set l site)
      (publishSync ops' v slot set (l.more k) site') := by
  obtain ⟨slot', hslot'⟩ : ∃ slot', slot' = { slot.setValues v with endOfBatch := true } :=
    ⟨_, rfl⟩
  obtain ⟨hresult, hreports, hstate⟩ := h.agree.run (.deliver slot' true) set hs.world
  have hsite := hs.absorb hreports hstate
  unfold publishSync AppenderSet.deliver
  dsimp only
  rw [← hslot', hresult]
  refine ⟨?_, hsite⟩
  rw [← count_more, ← count_more, ← count_more]
  rfl

/-- An event is published alike, or rejected on both sides. -/
theorem mirrored_publish (h : ops.Mirror ops' R) (v : EventValues) (l : Logger α)
    (hs : site.Mirrored R site') :
    Mirrored R k (l.publish ops v site) ((l.more k).publish ops' v site') := by
  unfold publish
  rw [accepting_more, backend_more]
  cases l.accepting with
  | false => exact ⟨count_more .rejected l, hs⟩
  | true =>
      rcases l.backend with (_ | ⟨slot, set⟩) | ⟨d, set, round⟩
      · exact ⟨count_more .rejected l, hs⟩
      · exact mirrored_publishSync h v slot set l hs
      · exact ⟨publishAsync_more v d set round l, hs⟩

/-- Filters see the query and nothing of the site, so they decide alike. -/
theorem mirrored_submit (h : ops.Mirror ops' R) (q : Query) (v : EventValues) (l : Logger α)
    (hs : site.Mirrored R site') :
    Mirrored R k (l.submit ops q v site) ((l.more k).submit ops' q v site') := by
  unfold submit
  show Mirrored R k (if admits l.settings q then _ else _) (if admits l.settings q then _ else _)
  split
  · exact mirrored_publish h v l hs
  · exact ⟨count_more .filtered l, hs⟩

/-- A logging call comes to the same on both sides. -/
theorem mirrored_make (h : ops.Mirror ops' R) (c : LoggingCall) (l : Logger α)
    (hs : site.Mirrored R site') :
    Mirrored R k (l.make ops c site) ((l.more k).make ops' c site') := by
  cases c with
  | message caller level marker message thrown => exact mirrored_submit h _ _ l hs
  | pattern caller level marker text params => exact mirrored_submit h _ _ l hs

/-- However many steps the dispatcher takes, it takes the same ones. -/
theorem mirrored_dispatch (h : ops.Mirror ops' R) (n : Nat) (l : Logger α)
    (hs : site.Mirrored R site') :
    Mirrored R k (l.dispatch ops n site) ((l.more k).dispatch ops' n site') := by
  unfold dispatch
  rw [backend_more]
  cases l.backend with
  | sync work => exact ⟨rfl, hs⟩
  | async d set round =>
      dsimp only
      have hshared : Shared.Mirrored (Crew.Mirrored R) k
          ⟨l.metrics, site.status, ⟨set, round, site.world⟩⟩
          ⟨l.metrics.more k, site'.status, ⟨set, round, site'.world⟩⟩ :=
        ⟨rfl, hs.status_eq, rfl, rfl, hs.world⟩
      have hsettled := Dispatcher.mirrored_settleFor (Crew.mirror_handler h) n d hshared
      refine ⟨?_, hsettled.shared.status_eq, hsettled.shared.handler.world⟩
      show ({ l.more k with metrics := _, backend := .async _ _ _ } : Logger α) = _
      rw [show (l.more k).metrics = l.metrics.more k from rfl, hsettled.dispatcher_eq,
        hsettled.shared.metrics_eq, hsettled.shared.handler.set_eq,
        hsettled.shared.handler.round_eq]
      rfl

/-- The dispatchers come to rest after as many steps. -/
theorem mirrored_runDispatcher (h : ops.Mirror ops' R) (l : Logger α)
    (hs : site.Mirrored R site') :
    Mirrored R k (l.runDispatcher ops site) ((l.more k).runDispatcher ops' site') := by
  have hsame : ∀ {S : Type} (ops : AppenderOps α S) (l : Logger α) (site : Site S),
      l.runDispatcher ops site = l.dispatch ops ((l.dispatcher?.map (·.enough)).getD 0) site := by
    intro S ops l site
    unfold runDispatcher dispatch dispatcher?
    cases l.backend <;> rfl
  rw [hsame, hsame]
  exact mirrored_dispatch h _ l hs

theorem mirrored_settleFor (h : ops.Mirror ops' R) (fuel : Nat) (l : Logger α)
    (hs : site.Mirrored R site') :
    Mirrored R k (settleFor ops fuel l site) (settleFor ops' fuel (l.more k) site') := by
  induction fuel generalizing l site site' with
  | zero => exact mirrored_runDispatcher h l hs
  | succ fuel ih =>
      obtain ⟨hlogger, hsite⟩ := mirrored_runDispatcher (k := k) h l hs
      unfold settleFor
      dsimp only
      rw [hlogger, retryWaiters_more]
      obtain ⟨l₁, hl₁⟩ : ∃ l₁, l₁ = (l.runDispatcher ops site).1.retryWaiters := ⟨_, rfl⟩
      rw [← hl₁]
      show Mirrored R k _ (if l₁.waiters.length < (l.runDispatcher ops site).1.waiters.length
        then _ else _)
      split
      · exact ih l₁ hsite
      · exact ⟨rfl, hsite⟩

/-- Time that passes until all rest passes alike. -/
theorem mirrored_settle (h : ops.Mirror ops' R) (l : Logger α) (hs : site.Mirrored R site') :
    Mirrored R k (l.settle ops site) ((l.more k).settle ops' site') :=
  mirrored_settleFor h l.waiters.length l hs

theorem answered_flushAsync (h : ops.Mirror ops' R) (d : Dispatcher) (l : Logger α)
    (hs : site.Mirrored R site') :
    Answered R k (flushAsync ops d l site) (flushAsync ops' d (l.more k) site') := by
  obtain ⟨hlogger, hsite⟩ := mirrored_settle (k := k) h l hs
  obtain ⟨⟨l₁, site₁⟩, ho₁⟩ : ∃ o, o = l.settle ops site := ⟨_, rfl⟩
  obtain ⟨⟨l₁', site₁'⟩, ho₁'⟩ : ∃ o, o = (l.more k).settle ops' site' := ⟨_, rfl⟩
  rw [← ho₁, ← ho₁'] at hlogger hsite
  obtain rfl : l₁' = l₁.more k := hlogger
  obtain ⟨now, hnow⟩ : ∃ now, now = l₁.dispatcher?.getD d := ⟨_, rfl⟩
  have hnow' : (l₁.more k).dispatcher?.getD d = now := hnow.symm
  -- the ticket is taken from the same dispatcher
  obtain ⟨hlogger₂, hsite₂⟩ := mirrored_settle (k := k) h
    (l₁.onDispatcher fun _ => now.requestFlush.2) hsite
  obtain ⟨⟨l₂, site₂⟩, ho₂⟩ : ∃ o, o = (l₁.onDispatcher fun _ =>
    now.requestFlush.2).settle ops site₁ := ⟨_, rfl⟩
  obtain ⟨⟨l₂', site₂'⟩, ho₂'⟩ : ∃ o, o = ((l₁.onDispatcher fun _ =>
    now.requestFlush.2).more k).settle ops' site₁' := ⟨_, rfl⟩
  rw [← ho₂, ← ho₂'] at hlogger₂ hsite₂
  obtain rfl : l₂' = l₂.more k := hlogger₂
  unfold flushAsync
  rw [← ho₁, ← ho₁']
  dsimp only
  rw [hnow', ← hnow, onDispatcher_more]
  split
  · split <;> exact ⟨rfl, rfl, hsite⟩
  · split
    · exact ⟨rfl, rfl, hsite⟩
    · rw [← ho₂, ← ho₂']
      obtain ⟨after, hafter⟩ : ∃ after, after = l₂.dispatcher?.getD now.requestFlush.2 := ⟨_, rfl⟩
      have hafter' : (l₂.more k).dispatcher?.getD now.requestFlush.2 = after := hafter.symm
      dsimp only
      rw [hafter', ← hafter]
      split
      · exact ⟨rfl, rfl, hsite₂⟩
      · split <;> exact ⟨rfl, rfl, hsite₂⟩

/-- A flush is answered alike. -/
theorem answered_flush (h : ops.Mirror ops' R) (l : Logger α) (hs : site.Mirrored R site') :
    Answered R k (l.flush ops site) ((l.more k).flush ops' site') := by
  unfold flush
  rw [backend_more]
  rcases l.backend with (_ | ⟨slot, set⟩) | ⟨d, set, round⟩
  · exact ⟨rfl, rfl, hs⟩
  · obtain ⟨hresult, hreports, hstate⟩ := h.agree.run .flush set hs.world
    exact ⟨hresult, rfl, hs.absorb hreports hstate⟩
  · exact answered_flushAsync h d l hs

/-- A dispatcher that is asked to stop is as long on its way out. -/
theorem answered_stopAsync (h : ops.Mirror ops' R) (timeout : Nat) (l : Logger α)
    (hs : site.Mirrored R site') :
    Answered R k (stopAsync ops timeout l site) (stopAsync ops' timeout (l.more k) site') := by
  have hasked := mirrored_settle (k := k) h (l.onDispatcher Dispatcher.requestStop) hs
  obtain ⟨⟨l₁, site₁⟩, ho₁⟩ : ∃ o, o = (l.onDispatcher Dispatcher.requestStop).settle ops site :=
    ⟨_, rfl⟩
  obtain ⟨⟨l₁', site₁'⟩, ho₁'⟩ : ∃ o,
    o = ((l.onDispatcher Dispatcher.requestStop).more k).settle ops' site' := ⟨_, rfl⟩
  rw [← ho₁, ← ho₁'] at hasked
  obtain rfl : l₁' = l₁.more k := hasked.logger_eq
  -- both dispatchers have finished by then, or neither has
  obtain ⟨⟨l₂, site₂⟩, ho₂⟩ : ∃ o, o = if l₁.dispatcher?.any Dispatcher.isFinished
    then (l₁, site₁) else (l₁.onDispatcher Dispatcher.expire).settle ops site₁ := ⟨_, rfl⟩
  obtain ⟨⟨l₂', site₂'⟩, ho₂'⟩ : ∃ o, o = if l₁.dispatcher?.any Dispatcher.isFinished
    then (l₁.more k, site₁')
    else ((l₁.onDispatcher Dispatcher.expire).more k).settle ops' site₁' := ⟨_, rfl⟩
  have hwaited : Mirrored R k (l₂, site₂) (l₂', site₂') := by
    rw [ho₂, ho₂']
    split
    · exact hasked
    · exact mirrored_settle h _ hasked.site
  obtain rfl : l₂' = l₂.more k := hwaited.logger_eq
  have hsite₂ : site₂.Mirrored R site₂' := hwaited.site
  unfold stopAsync
  rw [onDispatcher_more, ← ho₁, ← ho₁']
  dsimp only
  rw [onDispatcher_more, show (l₁.more k).dispatcher? = l₁.dispatcher? from rfl, ← ho₂, ← ho₂']
  dsimp only
  rw [show (l₂.more k).dispatcher? = l₂.dispatcher? from rfl]
  cases l₂.dispatcher? with
  | none => exact ⟨rfl, rfl, hsite₂⟩
  | some d =>
      dsimp only
      unfold Dispatcher.stopResult
      split
      · exact ⟨rfl, rfl, hsite₂.status_eq, hsite₂.world⟩
      · exact ⟨rfl, rfl, (hsite₂.report _).status_eq, hsite₂.world⟩

/-- A shutdown is answered alike, in either mode. -/
theorem answered_shutdown (h : ops.Mirror ops' R) (timeout : Nat) (l : Logger α)
    (hs : site.Mirrored R site') :
    Answered R k (l.shutdown ops timeout site) ((l.more k).shutdown ops' timeout site') := by
  unfold shutdown
  show Answered R k _ (if !l.accepting then _ else _)
  split
  · exact ⟨rfl, rfl, hs⟩
  · obtain ⟨l₀, hl₀⟩ : ∃ l₀, l₀ = { l with accepting := false } := ⟨_, rfl⟩
    have hl₀' : ({ l.more k with accepting := false } : Logger α) = l₀.more k := by
      rw [hl₀]
      rfl
    rw [hl₀', ← hl₀]
    have hwhole : ∀ {o : Bool × Logger α × Site S} {o' : Bool × Logger α × Site T},
        Answered R k o o' → Answered R k (o.1, { o.2.1 with cleanShutdown := o.1 }, o.2.2)
          (o'.1, { o'.2.1 with cleanShutdown := o'.1 }, o'.2.2) := by
      intro o o' ho
      refine ⟨ho.answer_eq, ?_, ho.logger.site⟩
      rw [ho.answer_eq, ho.logger.logger_eq]
      rfl
    refine hwhole ?_
    rw [backend_more]
    rcases l₀.backend with (_ | ⟨slot, set⟩) | ⟨d, set, round⟩
    · exact ⟨rfl, rfl, hs⟩
    · obtain ⟨hresult, hreports, hstate⟩ := h.agree.run .stop set hs.world
      exact ⟨congrArg (fun r => (Outcome.ofExcept r).isDone) hresult, rfl,
        hs.absorb hreports hstate⟩
    · dsimp only
      split
      · exact answered_stopAsync h timeout l₀ hs
      · exact ⟨rfl, rfl, hs⟩

-- ============================================================ each move

end Logger

/-- The same move, where others do something like it to another kind of site. -/
def LoggerMove.onSite (g : (Site S → Site S) → Site T → Site T) : LoggerMove S → LoggerMove T
  | .log c => .log c
  | .overtaken c => .overtaken c
  | .flush => .flush
  | .shutdown timeout => .shutdown timeout
  | .settle => .settle
  | .dispatch n => .dispatch n
  | .retry i => .retry i
  | .outside f => .outside (g f)

namespace Logger

variable {site : Site S} {site' : Site T} {g : (Site S → Site S) → Site T → Site T}

/-- Whatever happens, it happens alike. -/
theorem mirrored_act (h : ops.Mirror ops' R)
    (hg : ∀ (f : Site S → Site S) (site : Site S) (site' : Site T),
      site.Mirrored R site' → (f site).Mirrored R (g f site'))
    (move : LoggerMove S) (l : Logger α) (hs : site.Mirrored R site') :
    Mirrored R k (l.act ops move site) ((l.more k).act ops' (move.onSite g) site') := by
  cases move with
  | log c => exact mirrored_make h c l hs
  | overtaken c =>
      have hmade := mirrored_make (k := k) h c { l with accepting := true } hs
      refine ⟨?_, hmade.site⟩
      exact congrArg (fun l' => ({ l' with accepting := l.accepting } : Logger α)) hmade.logger_eq
  | flush => exact (answered_flush h l hs).logger
  | shutdown timeout => exact (answered_shutdown h timeout l hs).logger
  | settle => exact mirrored_settle h l hs
  | dispatch n => exact mirrored_dispatch h n l hs
  | retry i => exact ⟨retryAt_more i l, hs⟩
  | outside f => exact ⟨rfl, hg f site site' hs⟩

/-- Whole runs mirror each other, if what others do to the one site is done to
the other. -/
theorem mirrored_actAll (h : ops.Mirror ops' R)
    (hg : ∀ (f : Site S → Site S) (site : Site S) (site' : Site T),
      site.Mirrored R site' → (f site).Mirrored R (g f site'))
    (moves : List (LoggerMove S)) (l : Logger α) (hs : site.Mirrored R site') :
    Mirrored R k (l.actAll ops moves site)
      ((l.more k).actAll ops' (moves.map (·.onSite g)) site') := by
  induction moves generalizing l site site' with
  | nil => exact ⟨rfl, hs⟩
  | cons move rest ih =>
      obtain ⟨hlogger, hsite⟩ := mirrored_act (k := k) h hg move l hs
      show Mirrored R k _ (((l.more k).act ops' (move.onSite g) site').1.actAll ops' _ _)
      rw [hlogger]
      exact ih _ hsite

end Logger

end LogPipeline
