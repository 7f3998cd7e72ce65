/-
An asynchronous logger is a service with callers. `Follows` says that a
logger, at some moment, does what a service does that has come about by
steps in some order; it goes through every call on the logger, so all
that is shown of services holds of loggers. `callOut_async` draws the
line at the end: a logger whose shutdown was clean has had a service run
to the end, and what was published there is part of what it was given.

# What is given

Every event that takes a sequence is `given`, in the order of the
sequences, whether or not it is published in the end. A caller that
waits holds a sequence whose fate is still reserved, no two of them the
same one (`apart`), so that one's answer leaves the others' alone. In
which order callers are let go on is of no concern (`Follows.perm`).

The logger counts what callers publish into the metrics that the
dispatcher works on. A service knows nothing of that; but a step does not
look at the metrics (`Dispatcher.alike_step`), so the two run side by side.
-/
import LogPipeline.Logger.Basic
import LogPipeline.Proofs.Appender.Crews
import LogPipeline.Proofs.Ring.Waiting

namespace LogPipeline

-- =================================================== calls on a logger

/-- What is done with a logger before it is shut down. -/
inductive LoggerCall where
  | publish (v : EventValues)
  /-- Time passes, until all rest. -/
  | settle
  | flush

namespace LoggerCall

def values? : LoggerCall → Option EventValues
  | publish v => some v
  | _ => none

/-- The events that are given to a logger. -/
def values (calls : List LoggerCall) : List EventValues := calls.filterMap values?

end LoggerCall

namespace Logger

variable {α S : Type}

/-- A call on a logger, however it ends. -/
def call (ops : AppenderOps α S) (c : LoggerCall) (l : Logger α) (site : Site S) :
    Logger α × Site S :=
  match c with
  | .publish v => l.publish ops v site
  | .settle => l.settle ops site
  | .flush => (l.flush ops site).2

/-- Calls, one after another. -/
def callAll (ops : AppenderOps α S) :
    List LoggerCall → Logger α → Site S → Logger α × Site S
  | [], l, site => (l, site)
  | c :: rest, l, site =>
      let (l, site) := l.call ops c site
      callAll ops rest l site

/-- Calls, one after another, and a shutdown. -/
def callOut (ops : AppenderOps α S) (timeout : Nat) (calls : List LoggerCall) (l : Logger α)
    (site : Site S) : Bool × Logger α × Site S :=
  let (l, site) := l.callAll ops calls site
  l.shutdown ops timeout site

-- =========================================================== following

/-- An asynchronous logger does what this service does. The events that
were given a sequence are `given`, and `ws` wait for their cells. -/
structure Follows (ops : AppenderOps α S) (size : Nat) (s₀ : Shared (Crew α S))
    (attached accepting : Bool) (given : List EventValues) (ws : List Ring.Waiter)
    (l : Logger α) (site : Site S) (sv : Service (Crew α S)) : Prop where
  reached : ∃ steps, sv = (Service.start size s₀).run (Crew.handler ops) steps
  attached_eq : sv.dispatcher.attached = attached
  accepting_eq : l.accepting = accepting
  backend_eq : l.backend
    = .async sv.dispatcher sv.shared.handler.set sv.shared.handler.round
  world_eq : site.world = sv.shared.handler.world
  length_eq : given.length = sv.fates.length
  given_eq : ∀ (s : Nat) (v : EventValues),
    sv.fates[s]? = some (.published v) → given[s]? = some v
  waiting : ∀ w ∈ ws, sv.fates[w.sequence]? = some .reserved
    ∧ given[w.sequence]? = some w.values
  apart : (ws.map (·.sequence)).Nodup
  published_eq : l.metrics.published = s₀.metrics.published + sv.fates.published.length

variable {ops : AppenderOps α S} {size : Nat} {s₀ : Shared (Crew α S)}
  {attached accepting : Bool} {given : List EventValues} {ws : List Ring.Waiter}
  {l : Logger α} {site : Site S} {sv : Service (Crew α S)} {set : AppenderSet α}

theorem Follows.filled (h : Follows ops size s₀ attached accepting given ws l site sv) :
    sv.fates.Filled given ws where
  waiting w hw := (h.waiting w hw).1
  apart := h.apart
  length_eq := h.length_eq
  given_eq := h.given_eq
  in_hand w hw := (h.waiting w hw).2

/-- In which order they wait is of no concern. -/
theorem Follows.perm (h : Follows ops size s₀ attached accepting given ws l site sv)
    {ws' : List Ring.Waiter} (hp : ws'.Perm ws) :
    Follows ops size s₀ attached accepting given ws' l site sv :=
  { h with
    waiting := fun w hw => h.waiting w (hp.mem_iff.1 hw)
    apart := (h.filled.perm hp).apart }

/-- What the service does next is part of its run. -/
theorem Follows.run (h : Follows ops size s₀ attached accepting given ws l site sv)
    (steps : List ServiceOp) :
    ∃ steps', sv.run (Crew.handler ops) steps
      = (Service.start size s₀).run (Crew.handler ops) steps' := by
  obtain ⟨before, rfl⟩ := h.reached
  exact ⟨before ++ steps, (Service.run_append _ _ _ _).symm⟩

theorem Follows.onDispatcher_eq
    (h : Follows ops size s₀ attached accepting given ws l site sv) (f : Dispatcher → Dispatcher) :
    l.onDispatcher f = { l with
      backend := .async (f sv.dispatcher) sv.shared.handler.set sv.shared.handler.round } := by
  unfold onDispatcher
  rw [h.backend_eq]

/-- The logger's dispatcher is that of the service. -/
theorem Follows.dispatcher_eq
    (h : Follows ops size s₀ attached accepting given ws l site sv) :
    l.dispatcher? = some sv.dispatcher := by
  unfold dispatcher?
  rw [h.backend_eq]

theorem Follows.waiters_onDispatcher
    (h : Follows ops size s₀ attached accepting given ws l site sv) (f : Dispatcher → Dispatcher) :
    (l.onDispatcher f).waiters = l.waiters := by
  rw [h.onDispatcher_eq]

/-- The dispatcher goes on until it rests. -/
theorem follows_runDispatcher
    (h : Follows ops size s₀ attached accepting given ws l site sv) :
    ∃ sv', Follows ops size s₀ attached accepting given ws (l.runDispatcher ops site).1
        (l.runDispatcher ops site).2 sv'
      ∧ (l.runDispatcher ops site).1.waiters = l.waiters := by
  obtain ⟨steps, hsteps⟩ : ∃ steps : List ServiceOp,
    steps = List.replicate sv.dispatcher.enough .step := ⟨_, rfl⟩
  obtain ⟨sv', hsv'⟩ : ∃ sv', sv' = sv.run (Crew.handler ops) steps := ⟨_, rfl⟩
  obtain ⟨hfates, hattached⟩ := Service.fates_steps (Crew.handler ops) sv.dispatcher.enough sv
  rw [← hsteps, ← hsv'] at hfates hattached
  have hrun : l.runDispatcher ops site
      = let o := sv.dispatcher.settle (Crew.handler ops)
          ⟨l.metrics, site.status, sv.shared.handler⟩
        ({ l with
            metrics := o.2.metrics
            backend := .async o.1 o.2.handler.set o.2.handler.round },
          ⟨o.2.status, o.2.handler.world⟩) := by
    unfold runDispatcher
    rw [h.backend_eq, h.world_eq]
  have hsettle := Service.settle_run (Crew.handler ops) sv
  rw [← hsteps, ← hsv'] at hsettle
  -- with other metrics and another log the logger's dispatcher goes the same way
  have halike := Dispatcher.alike_settleFor (h := Crew.handler ops) (d := sv.dispatcher)
    (show (⟨l.metrics, site.status, sv.shared.handler⟩ : Shared (Crew α S)).handler
      = sv.shared.handler from rfl) sv.dispatcher.enough
  obtain ⟨o, ho⟩ : ∃ o, o = sv.dispatcher.settle (Crew.handler ops)
    ⟨l.metrics, site.status, sv.shared.handler⟩ := ⟨_, rfl⟩
  have halike' : Dispatcher.Alike ⟨l.metrics, site.status, sv.shared.handler⟩ sv.shared o
      (sv'.dispatcher, sv'.shared) := by
    rw [ho, ← hsettle]
    exact halike
  rw [hrun, ← ho]
  have hdispatcher : o.1 = sv'.dispatcher := halike'.dispatcher
  have hhandler : o.2.handler = sv'.shared.handler := halike'.handler
  refine ⟨sv', ?_, rfl⟩
  exact {
    reached := hsv' ▸ h.run steps
    attached_eq := hattached.trans h.attached_eq
    accepting_eq := h.accepting_eq
    backend_eq := by rw [← hdispatcher, ← hhandler]
    world_eq := congrArg Crew.world hhandler
    length_eq := by
      rw [hfates]
      exact h.length_eq
    given_eq := by
      rw [hfates]
      exact h.given_eq
    waiting := by
      rw [hfates]
      exact h.waiting
    apart := h.apart
    published_eq := by
      rw [hfates, ← h.published_eq]
      exact halike'.published.1 }

/-- What is changed about a dispatcher from outside. -/
theorem follows_onDispatcher
    (h : Follows ops size s₀ attached accepting given ws l site sv) (op : ServiceOp)
    (f : Dispatcher → Dispatcher)
    (hop : sv.step (Crew.handler ops) op = { sv with dispatcher := f sv.dispatcher }) :
    Follows ops size s₀ (f sv.dispatcher).attached accepting given ws (l.onDispatcher f) site
      { sv with dispatcher := f sv.dispatcher } := by
  rw [h.onDispatcher_eq]
  exact { h with
    reached := hop ▸ h.run [op]
    attached_eq := rfl
    backend_eq := rfl }

-- ========================================================== publishing

/-- A caller takes a sequence for its event, and now waits for the cell. -/
theorem follows_reserved (h : Follows ops size s₀ attached accepting given ws l site sv)
    {seq : Nat} {ring : Ring} (hring : sv.ring.reserve = some (seq, ring)) (v : EventValues) :
    ∃ sv', Follows ops size s₀ attached accepting (given ++ [v]) (⟨seq, v⟩ :: ws)
      (l.onDispatcher ({ · with ring })) site sv' := by
  -- sequences are given out in order
  have hseq : seq = sv.fates.length := by
    obtain ⟨steps, rfl⟩ := h.reached
    rw [(Service.tracks_run (Crew.handler ops) size s₀ steps).length_eq]
    unfold Ring.reserve at hring
    split at hring <;> cases hring
    rfl
  obtain ⟨sv', hsv'⟩ : ∃ sv', sv' = sv.withTraffic ⟨ring, sv.fates ++ [.reserved]⟩ := ⟨_, rfl⟩
  have hstep : sv.run (Crew.handler ops) [.produce .reserve] = sv' := by
    have hproduce : sv.traffic.produce .reserve = ⟨ring, sv.fates ++ [.reserved]⟩ := by
      have hreserve : sv.traffic.ring.reserve = some (seq, ring) := hring
      unfold Traffic.produce
      rw [hreserve]
      rfl
    rw [hsv']
    exact congrArg sv.withTraffic hproduce
  have hfates : sv'.fates = sv.fates ++ [.reserved] := by rw [hsv']; rfl
  have hfilled : sv'.fates.Filled (given ++ [v]) (⟨seq, v⟩ :: ws) := by
    rw [hfates, hseq]
    exact h.filled.draw v
  refine ⟨sv', ?_⟩
  rw [h.onDispatcher_eq]
  exact {
    reached := hstep ▸ h.run [.produce .reserve]
    attached_eq := by
      rw [hsv']
      exact h.attached_eq
    accepting_eq := h.accepting_eq
    backend_eq := by rw [hsv']; rfl
    world_eq := by
      rw [hsv']
      exact h.world_eq
    length_eq := hfilled.length_eq
    given_eq := hfilled.given_eq
    waiting := fun w hw => ⟨hfilled.waiting w hw, hfilled.in_hand w hw⟩
    apart := hfilled.apart
    published_eq := by
      rw [hfates]
      unfold Fates.published
      rw [List.filterMap_append, List.length_append]
      exact h.published_eq }

/-- A waiting caller asks for its cell, and is told something. -/
theorem follows_asked {w : Ring.Waiter}
    (h : Follows ops size s₀ attached accepting given (w :: ws) l site sv) (l' : Logger α)
    (haccepting : l'.accepting = l.accepting)
    (hbackend : l'.backend = .async { sv.dispatcher with ring := (sv.ring.retry w).2 }
      sv.shared.handler.set sv.shared.handler.round)
    (hcount : ∀ f, Traffic.Told w (sv.ring.retry w).1 f →
      l'.metrics.published = l.metrics.published + f.values?.toList.length) :
    ∃ sv', Follows ops size s₀ attached accepting given
      (if (sv.ring.retry w).1.isSome then ws else w :: ws) l' site sv' := by
  obtain ⟨hw, -⟩ := h.waiting w List.mem_cons_self
  obtain ⟨f, htold, hattempt⟩ := Traffic.attempt_eq (t := sv.traffic) hw
  obtain ⟨sv', hsv'⟩ : ∃ sv', sv' = sv.withTraffic (sv.traffic.attempt w) := ⟨_, rfl⟩
  -- the service confirms, and publishes if that was granted
  have hstep : sv.run (Crew.handler ops)
      [.produce (.confirm w.sequence), .produce (.publish w.sequence w.values)] = sv' := by
    rw [hsv']
    rfl
  have hfates : sv'.fates = sv.fates.set w.sequence f := by
    rw [hsv', hattempt]
    rfl
  have hfilled : sv'.fates.Filled given (if (sv.ring.retry w).1.isSome then ws else w :: ws) :=
    hfates ▸ h.filled.heard htold
  refine ⟨sv', ?_⟩
  exact {
    reached := hstep ▸ h.run _
    attached_eq := by
      rw [hsv']
      exact h.attached_eq
    accepting_eq := haccepting.trans h.accepting_eq
    backend_eq := by
      rw [hbackend, hsv', hattempt]
      rfl
    world_eq := by
      rw [hsv']
      exact h.world_eq
    length_eq := hfilled.length_eq
    given_eq := hfilled.given_eq
    waiting := fun w' hw' => ⟨hfilled.waiting w' hw', hfilled.in_hand w' hw'⟩
    apart := hfilled.apart
    published_eq := by
      rw [hfates, Fates.length_published_set hw rfl f, hcount f htold, h.published_eq]
      omega }

/-- One that waits tries again. -/
theorem follows_retryWaiter {w : Ring.Waiter} (rest : List Ring.Waiter)
    (h : Follows ops size s₀ attached accepting given (w :: (rest ++ l.waiters)) l site sv) :
    ∃ sv', Follows ops size s₀ attached accepting given (rest ++ (l.retryWaiter w).waiters)
      (l.retryWaiter w) site sv' := by
  have hretry : l.retryWaiter w = l.retryWaiter w := rfl
  conv at hretry =>
    rhs
    unfold retryWaiter
  rw [h.backend_eq] at hretry
  dsimp only at hretry
  have hasked := follows_asked h
  rcases hanswer : sv.ring.retry w with ⟨answer, ring⟩
  have hanswer' : sv.dispatcher.ring.retry w = (answer, ring) := hanswer
  rw [hanswer] at hasked
  rw [hanswer'] at hretry
  rw [hretry]
  rcases answer with _ | (_ | _)
  · obtain ⟨sv', hfollows⟩ := hasked { l with
      backend := .async { sv.dispatcher with ring } sv.shared.handler.set
          sv.shared.handler.round
      waiters := l.waiters ++ [w] } rfl rfl fun f hf => by
        rw [show f = .reserved from hf]
        rfl
    refine ⟨sv', hfollows.perm ?_⟩
    rw [← List.append_assoc]
    exact List.perm_append_singleton w (rest ++ l.waiters)
  · exact hasked _ rfl rfl fun f hf => by
      rcases hf with rfl | rfl <;> rfl
  · exact hasked _ rfl rfl fun f hf => by
      rw [show f = .published w.values from hf]
      rfl

/-- A caller that has just taken its sequence goes on like one that waits,
but is not counted as one that has waited. -/
theorem follows_publishAsync
    (h : Follows ops size s₀ attached accepting given l.waiters l site sv) (v : EventValues) :
    ∃ given' sv', given'.Sublist (given ++ [v])
      ∧ Follows ops size s₀ attached accepting given'
        (publishAsync v sv.dispatcher sv.shared.handler.set sv.shared.handler.round l).waiters
        (publishAsync v sv.dispatcher sv.shared.handler.set sv.shared.handler.round l) site
        sv' := by
  obtain ⟨l', hl'⟩ : ∃ l', l' = publishAsync v sv.dispatcher sv.shared.handler.set
    sv.shared.handler.round l := ⟨_, rfl⟩
  rw [← hl']
  unfold publishAsync at hl'
  cases hring : sv.dispatcher.ring.reserve with
  | none =>
      rw [hring] at hl'
      refine ⟨given, sv, List.sublist_append_left given [v], ?_⟩
      rw [hl']
      exact { h with }
  | some o =>
      obtain ⟨seq, ring⟩ := o
      obtain ⟨sv₁, h₁⟩ := follows_reserved h hring v
      obtain ⟨l₁, hl₁⟩ : ∃ l₁, l₁ = l.onDispatcher ({ · with ring }) := ⟨_, rfl⟩
      -- publishing is waiting from the start, but for the counter of waits
      have hlater : l'.backend = (l₁.retryWaiter ⟨seq, v⟩).backend
          ∧ l'.accepting = (l₁.retryWaiter ⟨seq, v⟩).accepting
          ∧ l'.waiters = (l₁.retryWaiter ⟨seq, v⟩).waiters
          ∧ l'.metrics.published = (l₁.retryWaiter ⟨seq, v⟩).metrics.published := by
        rw [hl', hl₁, h.onDispatcher_eq]
        unfold retryWaiter Ring.retry
        simp only [hring]
        rcases ring.confirm seq with ⟨answer, ring'⟩
        cases answer <;> exact ⟨rfl, rfl, rfl, rfl⟩
      have hwaiters : l₁.waiters = l.waiters := by
        rw [hl₁, h.onDispatcher_eq]
      rw [← hl₁, ← hwaiters] at h₁
      obtain ⟨sv', h'⟩ := follows_retryWaiter [] h₁
      obtain ⟨hbackend, haccepting, hwait, hpublished⟩ := hlater
      refine ⟨given ++ [v], sv', List.Sublist.refl _, ?_⟩
      rw [hwait]
      exact { h' with
        accepting_eq := haccepting.trans h'.accepting_eq
        backend_eq := hbackend.trans h'.backend_eq
        published_eq := hpublished.trans h'.published_eq }

-- ============================================================ settling

/-- All that wait try again, one after another. -/
theorem follows_retryWaiters
    (h : Follows ops size s₀ attached accepting given l.waiters l site sv) :
    ∃ sv', Follows ops size s₀ attached accepting given l.retryWaiters.waiters
      l.retryWaiters site sv' := by
  have hfold : ∀ (rest : List Ring.Waiter) (l : Logger α) (sv : Service (Crew α S)),
      Follows ops size s₀ attached accepting given (rest ++ l.waiters) l site sv →
        ∃ sv', Follows ops size s₀ attached accepting given (rest.foldl retryWaiter l).waiters
          (rest.foldl retryWaiter l) site sv' := by
    intro rest
    induction rest with
    | nil => exact fun l sv h => ⟨sv, h⟩
    | cons w rest ih =>
        intro l sv h
        obtain ⟨sv', h'⟩ := follows_retryWaiter rest h
        exact ih (l.retryWaiter w) sv' h'
  apply hfold l.waiters { l with waiters := [] } sv
  rw [List.append_nil]
  exact { h with }

/-- A logger that settles goes on following. -/
theorem follows_settleFor (fuel : Nat)
    (h : Follows ops size s₀ attached accepting given l.waiters l site sv) :
    ∃ sv', Follows ops size s₀ attached accepting given (settleFor ops fuel l site).1.waiters
      (settleFor ops fuel l site).1 (settleFor ops fuel l site).2 sv' := by
  induction fuel generalizing l site sv with
  | zero =>
      obtain ⟨sv₁, h₁, hwaiters⟩ := follows_runDispatcher h
      exact ⟨sv₁, hwaiters ▸ h₁⟩
  | succ fuel ih =>
      obtain ⟨sv₁, h₁, hwaiters⟩ := follows_runDispatcher h
      rw [← hwaiters] at h₁
      obtain ⟨sv₂, h₂⟩ := follows_retryWaiters h₁
      unfold settleFor
      dsimp only
      split
      · exact ih h₂
      · exact ⟨sv₂, h₂⟩

/-- A logger that settles goes on as its service might. -/
theorem follows_settle (h : Follows ops size s₀ attached accepting given l.waiters l site sv) :
    ∃ sv', Follows ops size s₀ attached accepting given (l.settle ops site).1.waiters
      (l.settle ops site).1 (l.settle ops site).2 sv' :=
  follows_settleFor l.waiters.length h

/-- Whatever it comes to, a flush is what the service might do. -/
theorem follows_flushAsync
    (h : Follows ops size s₀ attached accepting given l.waiters l site sv) :
    ∃ sv', Follows ops size s₀ attached accepting given
      (flushAsync ops sv.dispatcher l site).2.1.waiters
      (flushAsync ops sv.dispatcher l site).2.1
      (flushAsync ops sv.dispatcher l site).2.2 sv' := by
  obtain ⟨sv₁, h₁⟩ := follows_settle h
  obtain ⟨o₁, ho₁⟩ : ∃ o₁, o₁ = l.settle ops site := ⟨_, rfl⟩
  rw [← ho₁] at h₁
  obtain ⟨l₁, site₁⟩ := o₁
  have hnow : l₁.dispatcher?.getD sv.dispatcher = sv₁.dispatcher := by
    rw [h₁.dispatcher_eq, Option.getD_some]
  have hrequest :=
    follows_onDispatcher h₁ .requestFlush (fun _ => sv₁.dispatcher.requestFlush.2) rfl
  have hattached : sv₁.dispatcher.requestFlush.2.attached = attached := h₁.attached_eq
  rw [hattached, ← h₁.waiters_onDispatcher fun _ => sv₁.dispatcher.requestFlush.2] at hrequest
  unfold flushAsync
  dsimp only
  rw [← ho₁]
  dsimp only
  rw [hnow]
  split
  · split <;> exact ⟨sv₁, h₁⟩
  · split
    · exact ⟨sv₁, h₁⟩
    · have hsettle := follows_settle hrequest
      split
      · exact hsettle
      · split <;> exact hsettle

-- ========================================================== whole runs

/-- After a call there is a service that the logger has followed, and the
call's event may be among those given. -/
theorem follows_call (h : Follows ops size s₀ true true given l.waiters l site sv)
    (c : LoggerCall) :
    ∃ given' sv', given'.Sublist (given ++ c.values?.toList)
      ∧ Follows ops size s₀ true true given' (l.call ops c site).1.waiters
        (l.call ops c site).1 (l.call ops c site).2 sv' := by
  cases c with
  | publish v =>
      have hcall : l.call ops (.publish v) site = (publishAsync v sv.dispatcher
          sv.shared.handler.set sv.shared.handler.round l, site) := by
        show l.publish ops v site = _
        unfold publish
        rw [h.accepting_eq, h.backend_eq]
        rfl
      rw [hcall]
      exact follows_publishAsync h v
  | settle =>
      obtain ⟨sv', h'⟩ := follows_settle h
      exact ⟨given, sv', List.sublist_append_left _ _, h'⟩
  | flush =>
      have hcall : l.call ops .flush site = (flushAsync ops sv.dispatcher l site).2 := by
        show (l.flush ops site).2 = _
        unfold flush
        rw [h.backend_eq]
      rw [hcall]
      obtain ⟨sv', h'⟩ := follows_flushAsync h
      exact ⟨given, sv', List.sublist_append_left _ _, h'⟩

/-- So there is after any calls. -/
theorem follows_callAll (calls : List LoggerCall)
    (h : Follows ops size s₀ true true given l.waiters l site sv) :
    ∃ given' sv', given'.Sublist (given ++ LoggerCall.values calls)
      ∧ Follows ops size s₀ true true given' (l.callAll ops calls site).1.waiters
        (l.callAll ops calls site).1 (l.callAll ops calls site).2 sv' := by
  induction calls generalizing given l site sv with
  | nil => exact ⟨given, sv, List.sublist_append_left _ _, h⟩
  | cons c rest ih =>
      obtain ⟨given₁, sv₁, hsub₁, h₁⟩ := follows_call h c
      obtain ⟨given₂, sv₂, hsub₂, h₂⟩ := ih h₁
      refine ⟨given₂, sv₂, ?_, h₂⟩
      have hvalues : LoggerCall.values (c :: rest)
          = c.values?.toList ++ LoggerCall.values rest := by
        unfold LoggerCall.values
        rw [List.filterMap_cons]
        cases c.values? <;> rfl
      rw [hvalues, ← List.append_assoc]
      exact hsub₂.trans (hsub₁.append_right _)

/-- A stop that is clean has seen the dispatcher finish and leave nothing
behind. -/
theorem follows_stopAsync (timeout : Nat)
    (h : Follows ops size s₀ attached accepting given l.waiters l site sv)
    (hclean : (stopAsync ops timeout l site).1 = true) :
    ∃ sv', Follows ops size s₀ false accepting given (stopAsync ops timeout l site).2.1.waiters
        (stopAsync ops timeout l site).2.1 (stopAsync ops timeout l site).2.2 sv'
      ∧ sv'.dispatcher.isFinished = true ∧ sv'.dispatcher.abandoned = 0 := by
  have hstop := follows_onDispatcher h .requestStop Dispatcher.requestStop rfl
  rw [← h.waiters_onDispatcher Dispatcher.requestStop] at hstop
  obtain ⟨sv₁, h₁⟩ := follows_settle hstop
  have hattached : sv.dispatcher.requestStop.attached = false := rfl
  rw [hattached] at h₁
  obtain ⟨o₁, ho₁⟩ : ∃ o₁, o₁ = (l.onDispatcher Dispatcher.requestStop).settle ops site :=
    ⟨_, rfl⟩
  rw [← ho₁] at h₁
  -- the deadline passes only if the dispatcher rests before it has finished
  obtain ⟨o₂, ho₂⟩ : ∃ o₂, o₂ = if o₁.1.dispatcher?.any Dispatcher.isFinished then o₁
    else (o₁.1.onDispatcher Dispatcher.expire).settle ops o₁.2 := ⟨_, rfl⟩
  obtain ⟨sv₂, h₂⟩ : ∃ sv₂, Follows ops size s₀ false accepting given o₂.1.waiters o₂.1 o₂.2
      sv₂ := by
    rw [ho₂]
    split
    · exact ⟨sv₁, h₁⟩
    · have hexpire := follows_onDispatcher h₁ .expire Dispatcher.expire rfl
      rw [← h₁.waiters_onDispatcher Dispatcher.expire] at hexpire
      have hattached₁ : sv₁.dispatcher.expire.attached = false := h₁.attached_eq
      rw [hattached₁] at hexpire
      exact follows_settle hexpire
  have hresult : stopAsync ops timeout l site
      = let o := sv₂.dispatcher.stopResult timeout
          (⟨o₂.1.metrics, o₂.2.status, ()⟩ : Shared Unit)
        (o.1, o₂.1, { o₂.2 with status := o.2.status }) := by
    unfold stopAsync
    dsimp only
    rw [← ho₁]
    obtain ⟨l₁, site₁⟩ := o₁
    dsimp only at ho₂ ⊢
    rw [← ho₂, h₂.dispatcher_eq]
  rw [hresult] at hclean ⊢
  refine ⟨sv₂, { h₂ with }, ?_⟩
  dsimp only at hclean
  unfold Dispatcher.stopResult at hclean
  split at hclean
  · next hfinished =>
    exact ⟨hfinished, of_decide_eq_true hclean⟩
  · cases hclean

/-- A clean shutdown is that of the service, which left nothing behind. -/
theorem follows_shutdown (timeout : Nat)
    (h : Follows ops size s₀ true true given l.waiters l site sv)
    (hclean : (l.shutdown ops timeout site).1 = true) :
    ∃ sv', Follows ops size s₀ false false given (l.shutdown ops timeout site).2.1.waiters
        (l.shutdown ops timeout site).2.1 (l.shutdown ops timeout site).2.2 sv'
      ∧ sv'.dispatcher.isFinished = true ∧ sv'.dispatcher.abandoned = 0 := by
  obtain ⟨o, ho⟩ : ∃ o, o = stopAsync ops timeout { l with accepting := false } site :=
    ⟨_, rfl⟩
  have hshutdown : l.shutdown ops timeout site
      = (o.1, { o.2.1 with cleanShutdown := o.1 }, o.2.2) := by
    rw [ho]
    unfold shutdown
    dsimp only
    rw [h.accepting_eq, h.backend_eq]
    dsimp only
    rw [h.attached_eq]
    rfl
  rw [hshutdown] at hclean ⊢
  have h₀ : Follows ops size s₀ true false given l.waiters { l with accepting := false } site
      sv := { h with accepting_eq := rfl }
  rw [ho] at hclean
  obtain ⟨sv', h', hover⟩ := follows_stopAsync timeout h₀ hclean
  rw [← ho] at h'
  exact ⟨sv', { h' with }, hover⟩

/-- A new logger on a new ring. -/
theorem follows_start (ops : AppenderOps α S) (haccepting : l.accepting = true)
    (hwaiters : l.waiters = []) (hbackend : l.backend = .async (.onNewRing size) set none)
    (site : Site S) :
    Follows ops size ⟨l.metrics, site.status, ⟨set, none, site.world⟩⟩ true true [] l.waiters l
      site (.start size ⟨l.metrics, site.status, ⟨set, none, site.world⟩⟩) where
  reached := ⟨[], rfl⟩
  attached_eq := rfl
  accepting_eq := haccepting
  backend_eq := hbackend
  world_eq := rfl
  length_eq := rfl
  given_eq := fun s v hs => by cases hs
  waiting := by
    intro w hw
    rw [hwaiters] at hw
    cases hw
  apart := by
    rw [hwaiters]
    exact List.nodup_nil
  published_eq := rfl

/-- Do anything with a new asynchronous logger and shut it down. If that was
clean, a service has done the same, has finished and left nothing behind,
and what was published is part of what the logger was given. -/
theorem callOut_async (ops : AppenderOps α S) (timeout : Nat) (calls : List LoggerCall)
    (site : Site S) (haccepting : l.accepting = true) (hwaiters : l.waiters = [])
    (hbackend : l.backend = .async (.onNewRing size) set none)
    (hclean : (l.callOut ops timeout calls site).1 = true) :
    ∃ steps,
      let sv := (Service.start size ⟨l.metrics, site.status, ⟨set, none, site.world⟩⟩).run
        (Crew.handler ops) steps
      sv.dispatcher.isFinished = true ∧ sv.dispatcher.abandoned = 0
        ∧ (l.callOut ops timeout calls site).2.2.world = sv.shared.handler.world
        ∧ sv.fates.published.Sublist (LoggerCall.values calls)
        ∧ (l.callOut ops timeout calls site).2.1.metrics.published
          = l.metrics.published + sv.fates.published.length := by
  obtain ⟨given, sv₁, hsub, h₁⟩ := follows_callAll calls
    (follows_start ops haccepting hwaiters hbackend site)
  obtain ⟨sv, h, hfinished, habandoned⟩ := follows_shutdown timeout h₁ hclean
  obtain ⟨steps, rfl⟩ := h.reached
  exact ⟨steps, hfinished, habandoned, h.world_eq,
    (Fates.published_sublist h.length_eq h.given_eq).trans hsub, h.published_eq⟩

end Logger

end LogPipeline
