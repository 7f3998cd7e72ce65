/-
What every single happening keeps, every move keeps. The methods of a
logger are made of a few happenings: its dispatcher takes a step, is asked
for something, or is left a new event; a caller that waits asks again; an
event is delivered on the spot, or the appenders are flushed. `Keeps`
names them. To show that something holds along a run it is enough to look
at these; that methods are made of them in loops and in branches is told
here once (`Keeps.act`, `Keeps.actAll`), short of the shutdown, of which
only the part that waits for a dispatcher is of this kind
(`Keeps.stopAsync`).

What is kept may speak of the events that were offered so far, whether or
not the logger has published them.
-/
import LogPipeline.Proofs.Logger.Moves

namespace LogPipeline

/-- The event that a call describes. -/
def LoggingCall.values (s : LoggerSettings) : LoggingCall → EventValues
  | message caller level marker m thrown => Logger.valuesOf s caller level marker m thrown
  | pattern caller level marker text params =>
      Logger.valuesOf s caller level marker (.parameterized text params) none

namespace LoggerMove

variable {S : Type}

def isShutdown : LoggerMove S → Bool
  | shutdown _ => true
  | _ => false

/-- The event that a move offers to a logger with these settings. -/
def values? (s : LoggerSettings) : LoggerMove S → Option EventValues
  | log c | overtaken c => some (c.values s)
  | _ => none

/-- The events that are offered, in order. -/
def offered (s : LoggerSettings) (moves : List (LoggerMove S)) : List EventValues :=
  moves.filterMap (values? s)

end LoggerMove

namespace Logger

variable {α S : Type} {ops : AppenderOps α S}

/-- Any call for an event submits its values. -/
theorem make_values (ops : AppenderOps α S) (c : LoggingCall) (l : Logger α) (site : Site S) :
    ∃ q, l.make ops c site = l.submit ops q (c.values l.settings) site := by
  cases c <;> exact ⟨_, rfl⟩

-- ============================================================ happenings

/-- The two differ at most in counters of no interest here, and in what a
shutdown is said to have come to. -/
structure Resembles (l' l : Logger α) : Prop where
  settings_eq : l'.settings = l.settings
  backend_eq : l'.backend = l.backend
  accepting_eq : l'.accepting = l.accepting
  waiters_eq : l'.waiters = l.waiters
  published_eq : l'.metrics.published = l.metrics.published

/-- A call that is turned away leaves the logger as it is, but for a
counter. -/
theorem resembles_turnedAway (l : Logger α) {k : Counter} (hk : k = .filtered ∨ k = .rejected) :
    (l.count k).Resembles l :=
  ⟨rfl, rfl, rfl, rfl, by rcases hk with rfl | rfl <;> rfl⟩

/-- What is asked of a dispatcher from outside. -/
inductive Asks : (Dispatcher → Dispatcher) → Prop
  | flush : Asks fun d => d.requestFlush.2
  | stop : Asks Dispatcher.requestStop
  | expire : Asks Dispatcher.expire

/-- Every single happening keeps this. What others do to the site is
restricted to `G`. -/
structure Keeps (ops : AppenderOps α S) (G : (Site S → Site S) → Prop)
    (P : List EventValues → Logger α → Site S → Prop) : Prop where
  /-- An event is offered and comes to nothing. -/
  offer : ∀ {e : List EventValues} {l : Logger α} {site : Site S} (v : EventValues),
    P e l site → P (e ++ [v]) l site
  mark : ∀ {e : List EventValues} {l l' : Logger α} {site : Site S},
    l'.Resembles l → P e l site → P e l' site
  status : ∀ {e : List EventValues} {l : Logger α} {site : Site S} (status : StatusLog),
    P e l site → P e l { site with status }
  outside : ∀ {e : List EventValues} {l : Logger α} {site : Site S} {f : Site S → Site S},
    G f → P e l site → P e l (f site)
  step : ∀ {e : List EventValues} {l : Logger α} {site : Site S},
    P e l site → P e (l.dispatch ops 1 site).1 (l.dispatch ops 1 site).2
  ask : ∀ {e : List EventValues} {l : Logger α} {site : Site S} {f : Dispatcher → Dispatcher},
    Asks f → P e l site → P e (l.onDispatcher f) site
  publish : ∀ {e : List EventValues} {l : Logger α} {site : Site S} {d : Dispatcher}
    {set : AppenderSet α} {round : Option (Round α)} (v : EventValues),
    l.backend = .async d set round → P e l site →
      P (e ++ [v]) (publishAsync v d set round l) site
  retry : ∀ {e : List EventValues} {l : Logger α} {site : Site S} (i : Nat),
    P e l site → P e (l.retryAt i) site
  deliver : ∀ {e : List EventValues} {l : Logger α} {site : Site S} {slot : EventSlot}
    {set : AppenderSet α} (v : EventValues), l.backend = .sync (some (slot, set)) →
      P e l site → P (e ++ [v]) (publishSync ops v slot set l site).1
        (publishSync ops v slot set l site).2
  flushed : ∀ {e : List EventValues} {l : Logger α} {site : Site S} {slot : EventSlot}
    {set : AppenderSet α}, l.backend = .sync (some (slot, set)) →
      P e l site → P e l (site.absorb (set.flush ops site.world))

-- ============================================================== one by one

variable {l : Logger α} {site : Site S}

/-- The dispatcher's steps are taken one by one. -/
theorem dispatch_succ (ops : AppenderOps α S) (n : Nat) (l : Logger α) (site : Site S) :
    l.dispatch ops (n + 1) site
      = (l.dispatch ops 1 site).1.dispatch ops n (l.dispatch ops 1 site).2 := by
  unfold dispatch
  cases hbackend : l.backend with
  | sync work =>
      dsimp only
      rw [hbackend]
  | async d set round =>
      dsimp only
      rw [Dispatcher.settleFor, Dispatcher.settleFor]
      cases hs : Dispatcher.step (Crew.handler ops) d
          ⟨l.metrics, site.status, ⟨set, round, site.world⟩⟩ with
      | some o => rfl
      | none =>
          have hrests : d.settleFor (Crew.handler ops) n
              ⟨l.metrics, site.status, ⟨set, round, site.world⟩⟩
              = (d, ⟨l.metrics, site.status, ⟨set, round, site.world⟩⟩) := by
            cases n with
            | zero => rfl
            | succ n => rw [Dispatcher.settleFor, hs]
          dsimp only
          rw [hrests]

/-- A caller that asks again does not look at the others who wait. -/
theorem retryWaiter_waiters (w : Ring.Waiter) (others : List Ring.Waiter) (l : Logger α) :
    ({ l with waiters := others ++ l.waiters } : Logger α).retryWaiter w
      = { l.retryWaiter w with waiters := others ++ (l.retryWaiter w).waiters } := by
  obtain ⟨settings, backend, accepting, cleanShutdown, metrics, waiters⟩ := l
  unfold retryWaiter
  cases backend with
  | sync work => rfl
  | async d set round =>
      dsimp only
      rcases d.ring.retry w with ⟨_ | _ | _, ring⟩
      · dsimp only
        rw [List.append_assoc]
      · rfl
      · rfl

theorem onDispatcher_const {d : Dispatcher} {set : AppenderSet α} {round : Option (Round α)}
    (hbackend : l.backend = .async d set round) (f : Dispatcher → Dispatcher) :
    (l.onDispatcher fun _ => f d) = l.onDispatcher f := by
  unfold onDispatcher
  rw [hbackend]

namespace Keeps

variable {G : (Site S → Site S) → Prop} {P : List EventValues → Logger α → Site S → Prop}
  {e : List EventValues} (hk : Keeps ops G P)
include hk

theorem dispatch (n : Nat) (h : P e l site) :
    P e (l.dispatch ops n site).1 (l.dispatch ops n site).2 := by
  induction n generalizing l site with
  | zero =>
      have hnone : l.dispatch ops 0 site = (l, site) := by
        unfold Logger.dispatch
        cases hbackend : l.backend with
        | sync work => rfl
        | async d set round =>
            show ({ l with metrics := l.metrics, backend := .async d set round }, _) = _
            rw [← hbackend]
      rw [hnone]
      exact h
  | succ n ih =>
      rw [dispatch_succ]
      exact ih (hk.step h)

theorem runDispatcher (h : P e l site) :
    P e (l.runDispatcher ops site).1 (l.runDispatcher ops site).2 := by
  obtain ⟨n, hn⟩ := runDispatcher_eq ops l site
  rw [hn]
  exact hk.dispatch n h

/-- All that wait ask again, the first of them each time. -/
theorem retryWaiters (h : P e l site) : P e l.retryWaiters site := by
  have hfold : ∀ (ws : List Ring.Waiter) (l : Logger α),
      P e { l with waiters := ws ++ l.waiters } site → P e (ws.foldl retryWaiter l) site := by
    intro ws
    induction ws with
    | nil => exact fun l h => h
    | cons w rest ih =>
        intro l h
        refine ih (l.retryWaiter w) ?_
        rw [← retryWaiter_waiters]
        exact hk.retry 0 h
  refine hfold l.waiters { l with waiters := [] } ?_
  rw [List.append_nil]
  exact h

/-- What each part of a logger keeps it keeps when it settles. -/
theorem settleFor (fuel : Nat) (h : P e l site) :
    P e (Logger.settleFor ops fuel l site).1 (Logger.settleFor ops fuel l site).2 := by
  induction fuel generalizing l site with
  | zero => exact hk.runDispatcher h
  | succ fuel ih =>
      unfold Logger.settleFor
      dsimp only
      have hretried := hk.retryWaiters (hk.runDispatcher h)
      split
      · exact ih hretried
      · exact hretried

theorem settle (h : P e l site) : P e (l.settle ops site).1 (l.settle ops site).2 :=
  hk.settleFor l.waiters.length h

/-- Whatever the dispatcher is asked, and then time passes. -/
theorem askAndSettle {f : Dispatcher → Dispatcher} (hf : Asks f) (h : P e l site) :
    P e ((l.onDispatcher f).settle ops site).1 ((l.onDispatcher f).settle ops site).2 :=
  hk.settle (hk.ask hf h)

/-- The flush is requested from the dispatcher as it stands when all rest. -/
theorem flush (h : P e l site) : P e (l.flush ops site).2.1 (l.flush ops site).2.2 := by
  unfold Logger.flush
  rcases hbackend : l.backend with (_ | ⟨slot, set⟩) | ⟨d, set, round⟩
  · exact h
  · exact hk.flushed hbackend h
  · have hsettled := hk.settle h
    dsimp only
    unfold flushAsync
    dsimp only
    obtain ⟨⟨l₁, site₁⟩, ho₁⟩ : ∃ o, o = l.settle ops site := ⟨_, rfl⟩
    rw [← ho₁] at hsettled ⊢
    dsimp only at hsettled ⊢
    -- the dispatcher is asked as it is by then, not as it was before
    have hrequested : P e ((l₁.onDispatcher fun _ => (l₁.dispatcher?.getD d).requestFlush.2).settle
        ops site₁).1 ((l₁.onDispatcher fun _ =>
          (l₁.dispatcher?.getD d).requestFlush.2).settle ops site₁).2 := by
      cases hbackend₁ : l₁.backend with
      | sync work =>
          have hsame : ∀ f, l₁.onDispatcher f = l₁ := fun f => by
            unfold onDispatcher
            rw [hbackend₁]
          rw [hsame]
          exact hk.settle hsettled
      | async d₁ set₁ round₁ =>
          have hnow : l₁.dispatcher?.getD d = d₁ := by
            unfold dispatcher?
            rw [hbackend₁]
            rfl
          rw [hnow, onDispatcher_const hbackend₁ fun d => d.requestFlush.2]
          exact hk.askAndSettle .flush hsettled
    split
    · split <;> exact hsettled
    · split
      · exact hsettled
      · split
        · exact hrequested
        · split <;> exact hrequested

/-- Waiting for the dispatcher to stop. -/
theorem stopAsync (timeout : Nat) (h : P e l site) :
    P e (Logger.stopAsync ops timeout l site).2.1 (Logger.stopAsync ops timeout l site).2.2 := by
  have hasked := hk.askAndSettle .stop h
  unfold Logger.stopAsync
  dsimp only
  obtain ⟨o₁, ho₁⟩ : ∃ o₁, o₁ = (l.onDispatcher Dispatcher.requestStop).settle ops site :=
    ⟨_, rfl⟩
  rw [← ho₁] at hasked ⊢
  obtain ⟨o₂, ho₂⟩ : ∃ o₂, o₂ = if o₁.1.dispatcher?.any Dispatcher.isFinished then o₁
    else (o₁.1.onDispatcher Dispatcher.expire).settle ops o₁.2 := ⟨_, rfl⟩
  have hwaited : P e o₂.1 o₂.2 := by
    rw [ho₂]
    split
    · exact hasked
    · exact hk.askAndSettle .expire hasked
  obtain ⟨l₁, site₁⟩ := o₁
  dsimp only at ho₂ ⊢
  rw [← ho₂]
  split
  · exact hwaited
  · exact hk.status _ hwaited

/-- An admitted event is published in one way or the other, or rejected. -/
theorem publishes (v : EventValues) (h : P e l site) :
    P (e ++ [v]) (l.publish ops v site).1 (l.publish ops v site).2 := by
  have hrejected : P (e ++ [v]) (l.count .rejected) site :=
    hk.mark (resembles_turnedAway l (.inr rfl)) (hk.offer v h)
  unfold Logger.publish
  split
  · exact hrejected
  · split
    · next d set round hbackend => exact hk.publish v hbackend h
    · exact hrejected
    · next slot set hbackend => exact hk.deliver v hbackend h

theorem make (c : LoggingCall) (h : P e l site) :
    P (e ++ [c.values l.settings]) (l.make ops c site).1 (l.make ops c site).2 := by
  obtain ⟨q, hmake⟩ := make_values ops c l site
  rw [hmake]
  unfold submit
  split
  · exact hk.publishes _ h
  · exact hk.mark (resembles_turnedAway l (.inl rfl)) (hk.offer _ h)

/-- Every move of a logger that accepts events, but for its shutdown. -/
theorem act {move : LoggerMove S} (hlive : move.isShutdown = false)
    (houtside : ∀ f, move = .outside f → G f) (haccepting : l.accepting = true)
    (h : P e l site) :
    P (e ++ (move.values? l.settings).toList) (l.act ops move site).1
      (l.act ops move site).2 := by
  cases move with
  | log c => exact hk.make c h
  | overtaken c =>
      rw [overtaken_eq_log haccepting]
      exact hk.make c h
  | shutdown timeout => cases hlive
  | flush | settle | dispatch n | retry i | outside f =>
      show P (e ++ []) _ _
      rw [List.append_nil]
      first
        | exact hk.flush h
        | exact hk.settle h
        | exact hk.dispatch _ h
        | exact hk.retry _ h
        | exact hk.outside (houtside _ rfl) h

end Keeps

-- ========================================================== whole runs

/-- What a logger was built with stays as it is, and so does whether it
accepts events. -/
theorem keeps_standing (ops : AppenderOps α S) (s : LoggerSettings) (accepting : Bool) :
    Keeps ops (fun _ => True) fun _ l _ => l.settings = s ∧ l.accepting = accepting where
  offer _ h := h
  mark hl h := ⟨hl.settings_eq.trans h.1, hl.accepting_eq.trans h.2⟩
  status _ h := h
  outside _ h := h
  step h := by
    unfold dispatch
    split <;> exact h
  ask _ h := by
    unfold onDispatcher
    split <;> exact h
  publish _ _ h := by
    unfold publishAsync
    split
    · exact h
    · split <;> exact h
  retry _ h := by
    unfold retryAt
    split
    · exact h
    · unfold retryWaiter
      split
      · exact h
      · split <;> exact h
  deliver _ _ h := h
  flushed _ h := h

/-- Nothing that happens changes what a logger was built with. -/
theorem settings_act (ops : AppenderOps α S) (move : LoggerMove S) (l : Logger α) (site : Site S) :
    (l.act ops move site).1.settings = l.settings := by
  have hk := keeps_standing ops l.settings
  cases move with
  | log c => exact ((hk l.accepting).make (e := []) c ⟨rfl, rfl⟩).1
  | overtaken c =>
      exact ((hk true).make (e := []) (l := { l with accepting := true }) c ⟨rfl, rfl⟩).1
  | flush => exact ((hk l.accepting).flush (e := []) ⟨rfl, rfl⟩).1
  | shutdown timeout =>
      show (l.shutdown ops timeout site).2.1.settings = l.settings
      unfold shutdown
      split
      · rfl
      · dsimp only
        split
        · split
          · exact ((hk false).stopAsync (e := []) (l := { l with accepting := false }) timeout
              ⟨rfl, rfl⟩).1
          · rfl
        · rfl
        · rfl
  | settle => exact ((hk l.accepting).settle (e := []) ⟨rfl, rfl⟩).1
  | dispatch n => exact ((hk l.accepting).dispatch (e := []) n ⟨rfl, rfl⟩).1
  | retry i => exact (@Keeps.retry _ _ _ _ _ (hk l.accepting) [] l site i ⟨rfl, rfl⟩).1
  | outside f => rfl

/-- No move changes the settings. -/
theorem settings_actAll (ops : AppenderOps α S) (moves : List (LoggerMove S)) (l : Logger α)
    (site : Site S) : (l.actAll ops moves site).1.settings = l.settings := by
  induction moves generalizing l site with
  | nil => rfl
  | cons move rest ih => exact (ih _ _).trans (settings_act ops move l site)

/-- What every happening keeps holds along every run up to the shutdown. -/
theorem Keeps.actAll {G : (Site S → Site S) → Prop}
    {P : List EventValues → Logger α → Site S → Prop} {e : List EventValues}
    (hk : Keeps ops G P) {moves : List (LoggerMove S)}
    (hlive : ∀ move ∈ moves, move.isShutdown = false)
    (houtside : ∀ f, .outside f ∈ moves → G f) (haccepting : l.accepting = true)
    (h : P e l site) :
    P (e ++ LoggerMove.offered l.settings moves) (l.actAll ops moves site).1
        (l.actAll ops moves site).2
      ∧ (l.actAll ops moves site).1.accepting = true := by
  induction moves generalizing e l site with
  | nil =>
      rw [show LoggerMove.offered l.settings [] = [] from rfl, List.append_nil]
      exact ⟨h, haccepting⟩
  | cons move rest ih =>
      have hfirst := hlive move List.mem_cons_self
      obtain ⟨hsettings, hstill⟩ : (l.act ops move site).1.settings = l.settings
          ∧ (l.act ops move site).1.accepting = true :=
        (keeps_standing ops l.settings true).act (e := e) hfirst (fun _ _ => trivial) haccepting
          ⟨rfl, haccepting⟩
      have hacted := hk.act hfirst (fun f hf => houtside f (hf ▸ List.mem_cons_self)) haccepting h
      have hrest := ih (fun m hm => hlive m (List.mem_cons_of_mem _ hm))
        (fun f hf => houtside f (List.mem_cons_of_mem _ hf)) hstill hacted
      have hoffered : LoggerMove.offered l.settings (move :: rest)
          = (move.values? l.settings).toList ++ LoggerMove.offered l.settings rest := by
        unfold LoggerMove.offered
        rw [List.filterMap_cons]
        cases move.values? l.settings <;> rfl
      rw [hsettings, List.append_assoc, ← hoffered] at hrest
      exact hrest

end Logger

end LogPipeline
