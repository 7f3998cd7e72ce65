/-
How appenders end. Whoever has them when a logger is shut down stops each
of them and drops it then and there: the logger itself, or its dispatcher
after the last event. Neither keeps any, so whoever is shut down or
dropped later finds nobody to stop (`Dismissed`).

All of this is told by the record of what is done to the appenders
(`actRecorded`). The record does not ask what their calls come to, so it
is the same if an appender fails or panics as it stops; and it is only
looked at (`actAll_plain`).

What appenders hold they hold until they are dropped, so with the last of
them all of it has come back (`ledger_shutdown`).
-/
import LogPipeline.Proofs.Appender.Lending
import LogPipeline.Proofs.Config.Building
import LogPipeline.Proofs.Logger.Mirroring
import LogPipeline.Proofs.Logger.Staffing
import LogPipeline.Proofs.Samples

namespace LogPipeline

variable {α S : Type}

-- ======================================================= recorded runs

namespace Site

/-- Nothing is on record yet. -/
def recorded (site : Site S) : Site (Recorded α S) := ⟨site.status, ⟨site.world, []⟩⟩

/-- The same without the record. -/
def plain (site : Site (Recorded α S)) : Site S := ⟨site.status, site.world.state⟩

end Site

/-- Others act on what is beside the record. -/
def Recorded.lift (f : Site S → Site S) (site : Site (Recorded α S)) : Site (Recorded α S) :=
  ⟨(f site.plain).status, { site.world with state := (f site.plain).world }⟩

namespace LoggerMove

theorem live_onSite {T : Type} (g : (Site S → Site S) → Site T → Site T)
    {moves : List (LoggerMove S)} (h : ∀ move ∈ moves, move.isShutdown = false) :
    ∀ move ∈ moves.map (·.onSite g), move.isShutdown = false := by
  intro move' hmove'
  obtain ⟨move, hmove, rfl⟩ := List.mem_map.1 hmove'
  refine Eq.trans ?_ (h move hmove)
  cases move <;> rfl

/-- What happens outside of lifted moves is lifted. -/
theorem outside_of_onSite {T : Type} {g : (Site S → Site S) → Site T → Site T}
    {moves : List (LoggerMove S)} {f' : Site T → Site T}
    (h : .outside f' ∈ moves.map (·.onSite g)) : ∃ f, .outside f ∈ moves ∧ f' = g f := by
  obtain ⟨move, hmove, heq⟩ := List.mem_map.1 h
  cases move with
  | outside f =>
      cases heq
      exact ⟨f, hmove, rfl⟩
  | _ => cases heq

/-- Lifted moves offer the same events. -/
theorem offered_onSite {T : Type} (g : (Site S → Site S) → Site T → Site T) (s : LoggerSettings)
    (moves : List (LoggerMove S)) : offered s (moves.map (·.onSite g)) = offered s moves := by
  unfold offered
  rw [List.filterMap_map]
  exact congrArg (List.filterMap · moves) (funext fun move => by cases move <;> rfl)

end LoggerMove

namespace Logger

variable {ops : AppenderOps α S} {l : Logger α} {site : Site S}

/-- What moves make of a logger and its site, with a record of what happens
to the appenders meanwhile. -/
def actRecorded (ops : AppenderOps α S) (moves : List (LoggerMove S)) (l : Logger α)
    (site : Site S) : Logger α × Site (Recorded α S) :=
  l.actAll ops.recorded (moves.map (·.onSite Recorded.lift)) site.recorded

theorem mirrored_plain (site : Site (Recorded α S)) :
    site.plain.Mirrored (fun s r => r.state = s) site := ⟨rfl, rfl⟩

/-- Without the record the two runs are the same. -/
theorem plain_of_mirrored {o : Logger α × Site S} {o' : Logger α × Site (Recorded α S)}
    (h : Mirrored (fun s r => r.state = s) 0 o o') : o = (o'.1, o'.2.plain) := by
  obtain ⟨l, status, world⟩ := o
  obtain ⟨l', status', world'⟩ := o'
  obtain ⟨hlogger, hstatus, hworld⟩ := h
  obtain rfl : l' = l := hlogger
  obtain rfl : status' = status := hstatus
  obtain rfl : world'.state = world := hworld
  rfl

/-- The record makes no difference. -/
theorem actAll_plain (ops : AppenderOps α S) (moves : List (LoggerMove S)) (l : Logger α)
    (site : Site S) :
    l.actAll ops moves site
      = ((l.actRecorded ops moves site).1, (l.actRecorded ops moves site).2.plain) := by
  refine plain_of_mirrored (mirrored_actAll (k := 0) ops.mirror_recorded ?_ moves l
    (mirrored_plain site.recorded))
  rintro f ⟨status, world⟩ ⟨status', world'⟩ ⟨hstatus, hworld⟩
  cases hstatus
  cases hworld
  exact ⟨rfl, rfl⟩

/-- The record does not change what a shutdown answers. -/
theorem shutdown_plain (ops : AppenderOps α S) (timeout : Nat) (l : Logger α)
    (site : Site (Recorded α S)) :
    (l.shutdown ops.recorded timeout site).1 = (l.shutdown ops timeout site.plain).1 :=
  (answered_shutdown (k := 0) ops.mirror_recorded timeout l (mirrored_plain site)).answer_eq

/-- Moves in two lots are made one lot after the other. -/
theorem actAll_append {T : Type} (ops : AppenderOps α T) (as bs : List (LoggerMove T))
    (l : Logger α) (site : Site T) :
    l.actAll ops (as ++ bs) site
      = (l.actAll ops as site).1.actAll ops bs (l.actAll ops as site).2 := by
  induction as generalizing l site with
  | nil => rfl
  | cons move rest ih => exact ih _ _

/-- A run with a shutdown in it. -/
theorem actRecorded_shutdown (ops : AppenderOps α S) (before later : List (LoggerMove S))
    (timeout : Nat) (l : Logger α) (site : Site S) :
    let o := l.actRecorded ops before site
    let stop := o.1.shutdown ops.recorded timeout o.2
    l.actRecorded ops (before ++ .shutdown timeout :: later) site
      = stop.2.1.actAll ops.recorded (later.map (·.onSite Recorded.lift)) stop.2.2 := by
  unfold actRecorded
  rw [List.map_append, actAll_append]
  rfl

-- ====================================================== after the stop

variable {ops : AppenderOps α S} {members : List α} {vs : List EventValues} {l : Logger α}
  {site : Site (Recorded α S)} {calls : Nat}

/-- A logger that is over and whose members have all been stopped, after
they were called for what was published. -/
structure Dismissed (ops : AppenderOps α S) (members : List α) (vs : List EventValues)
    (l : Logger α) (site : Site (Recorded α S)) : Prop where
  isOver : l.Over
  nobody : l.backend.members = []
  detached : ∀ d, l.dispatcher? = some d → d.attached = false
  stopped : ∃ (calls : List SetCall) (published : List EventValues),
    SetCall.events calls = published.map EventSlot.ofValues ∧ published.Sublist vs
      ∧ published.length = l.metrics.published
      ∧ site.world.acts = calls.flatMap (fun c => members.flatMap (c.errand.actsOn ops))
        ++ members.flatMap (Errand.stop.actsOn ops)

/-- A logger that calls its appenders itself stops them itself. -/
theorem Attends.dismissed (h : Attends ops members vs l site) (hdirect : l.Direct calls)
    (haccepting : l.accepting = true) (timeout : Nat) :
    Dismissed ops members vs (l.shutdown ops.recorded timeout site).2.1
      (l.shutdown ops.recorded timeout site).2.2 := by
  obtain ⟨hdirect', hshut⟩ := hdirect.shutdown ops.recorded timeout site
  have hover := hdirect'.isOver hshut
  obtain ⟨slot, hbackend⟩ := h.backend_eq
  obtain ⟨r, hr⟩ : ∃ r, r = (AppenderSet.mk members).run ops.recorded .stop site.world := ⟨_, rfl⟩
  have hshutdown : l.shutdown ops.recorded timeout site
      = ((Outcome.ofExcept r.result).isDone,
        { l with
          accepting := false
          backend := .sync none
          cleanShutdown := (Outcome.ofExcept r.result).isDone },
        site.absorb r) := by
    unfold shutdown
    rw [haccepting, hbackend, hr]
    rfl
  rw [hshutdown] at hover ⊢
  obtain ⟨calls', published, hevents, hsub, hlength, hacts⟩ := h.called
  refine ⟨hover, rfl, fun d hd => (by cases hd), calls', published, hevents, hsub, hlength, ?_⟩
  rw [← hacts, hr]
  exact Errand.acts_visitAll .stop members .clean site.world

/-- Once a shutdown was clean, there is a dispatcher that has finished and
left nothing behind, and that nobody holds any more. -/
theorem Booked.finished (h : l.Booked calls) (hshut : l.accepting = false)
    (hclean : l.cleanShutdown = true) :
    ∃ d set round, l.backend = .async d set round ∧ d.isFinished = true ∧ d.abandoned = 0
      ∧ d.attached = false := by
  obtain ⟨fates, d, hb, hdone⟩ := h.books
  obtain ⟨hfinished, habandoned⟩ := hdone hshut hclean
  obtain ⟨set, round, hbackend⟩ := hb.backend_eq
  have hattached : d.attached = l.accepting := congrArg Standing.attached hb.standing_eq
  exact ⟨d, set, round, hbackend, hfinished, habandoned, hattached.trans hshut⟩

/-- The first shutdown of an asynchronous logger waits for its dispatcher. -/
theorem Booked.shutdown_eq {T : Type} (h : l.Booked calls) (haccepting : l.accepting = true)
    (ops : AppenderOps α T) (timeout : Nat) (site : Site T) :
    l.shutdown ops timeout site
      = let o := stopAsync ops timeout { l with accepting := false } site
        (o.1, { o.2.1 with cleanShutdown := o.1 }, o.2.2) := by
  obtain ⟨fates, d, hb, -⟩ := h.books
  obtain ⟨set, round, hbackend⟩ := hb.backend_eq
  have hattached : d.attached = l.accepting := congrArg Standing.attached hb.standing_eq
  unfold Logger.shutdown
  dsimp only
  rw [haccepting, hbackend]
  dsimp only
  rw [hattached, haccepting]
  rfl

/-- A dispatcher that is shut down in time has stopped the appenders. -/
theorem Staffed.dismissed (h : Staffed ops members vs l site) (hbooked : l.Booked calls)
    (haccepting : l.accepting = true) {timeout : Nat}
    (hclean : (l.shutdown ops.recorded timeout site).1 = true) :
    Dismissed ops members vs (l.shutdown ops.recorded timeout site).2.1
      (l.shutdown ops.recorded timeout site).2.2 := by
  obtain ⟨hbooked', hshut, hanswer⟩ := hbooked.shutdown ops.recorded timeout site
  have hclean' := hanswer.trans hclean
  have hstaffed : Staffed ops members vs (l.shutdown ops.recorded timeout site).2.1
      (l.shutdown ops.recorded timeout site).2.2 := by
    have hasked : Staffed ops members vs { l with accepting := false } site := by
      obtain ⟨given, sv, hsub, hm⟩ := h
      exact ⟨given, sv, hsub, { hm with }⟩
    obtain ⟨given, sv, hsub, hm⟩ := (keeps_staffed ops members).stopAsync timeout hasked
    rw [hbooked.shutdown_eq haccepting]
    exact ⟨given, sv, hsub, { hm with }⟩
  obtain ⟨given, sv, hsub, hm⟩ := hstaffed
  obtain ⟨d, set, round, hbackend, hfinished, habandoned, hdetached⟩ :=
    hbooked'.finished hshut hclean'
  have hsame := hbackend.symm.trans hm.backend_eq
  injection hsame with hd hset
  subst hd
  obtain ⟨m₀, l₀, hinv⟩ := hm.inv
  obtain ⟨hnobody, calls', hevents, hacts⟩ :=
    Service.career_finished hinv hm.career hfinished habandoned
  refine ⟨(hbooked'.balanced hshut hclean').1, ?_, fun d hd => ?_, calls', sv.fates.published,
    hevents, ?_, hm.published_eq.symm, ?_⟩
  · rw [hm.backend_eq, hnobody]
    rfl
  · unfold dispatcher? at hd
    rw [hm.backend_eq] at hd
    rw [← Option.some.inj hd]
    exact hdetached
  · exact (Fates.published_sublist hm.filled.length_eq hm.filled.given_eq).trans hsub
  · rw [hm.world_eq]
    exact hacts

/-- A shutdown leaves its answer for those that follow. -/
theorem cleanShutdown_shutdown {T : Type} (ops : AppenderOps α T) (timeout : Nat) (l : Logger α)
    (site : Site T) :
    (l.shutdown ops timeout site).2.1.cleanShutdown = (l.shutdown ops timeout site).1 := by
  unfold shutdown
  split <;> rfl

namespace Dismissed

/-- Nothing is done to the members any more. -/
theorem actAll (h : Dismissed ops members vs l site) {moves : List (LoggerMove (Recorded α S))}
    (houtside : ∀ f, .outside f ∈ moves → Apart f) :
    Dismissed ops members vs (l.actAll ops.recorded moves site).1
        (l.actAll ops.recorded moves site).2
      ∧ (l.actAll ops.recorded moves site).2.world.deeds = site.world.deeds
      ∧ (l.actAll ops.recorded moves site).1.cleanShutdown = l.cleanShutdown := by
  induction moves generalizing l site with
  | nil => exact ⟨h, rfl, rfl⟩
  | cons move rest ih =>
      obtain ⟨k, hk, hact⟩ := over_act ops.recorded h.isOver move site
      obtain ⟨o, ho⟩ : ∃ o, o = (if move.isLog then l.count k else l, move.elsewhere site) :=
        ⟨_, rfl⟩
      -- only what happens elsewhere goes on, and that records nothing
      have hdeeds : o.2.world.deeds = site.world.deeds := by
        rw [ho]
        cases move with
        | outside f => exact houtside f List.mem_cons_self site
        | _ => rfl
      -- a call that is turned away changes a counter of no interest
      have hkept : o.1.backend = l.backend ∧ o.1.cleanShutdown = l.cleanShutdown
          ∧ o.1.metrics.published = l.metrics.published ∧ o.1.Over := by
        rw [ho]
        dsimp only
        split
        · exact ⟨rfl, rfl, by rcases hk with rfl | rfl <;> rfl, h.isOver.count k⟩
        · exact ⟨rfl, rfl, rfl, h.isOver⟩
      obtain ⟨hbackend, hclean, hpublished, hover⟩ := hkept
      have hdismissed : Dismissed ops members vs o.1 o.2 := by
        refine ⟨hover, hbackend ▸ h.nobody, fun d hd => h.detached d ?_, ?_⟩
        · unfold dispatcher? at hd ⊢
          rw [hbackend] at hd
          exact hd
        · unfold Recorded.acts
          rw [hdeeds, hpublished]
          exact h.stopped
      obtain ⟨hrest, hdeeds', hclean'⟩ := ih hdismissed fun f hf =>
        houtside f (List.mem_cons_of_mem _ hf)
      have hcons : l.actAll ops.recorded (move :: rest) site
          = o.1.actAll ops.recorded rest o.2 := by
        show (l.act ops.recorded move site).1.actAll ops.recorded rest
          (l.act ops.recorded move site).2 = _
        rw [hact, ho]
      rw [hcons]
      exact ⟨hrest, hdeeds'.trans hdeeds, hclean'.trans hclean⟩

/-- A later shutdown tells what the first one came to, and does nothing. -/
theorem shutdown (h : Dismissed ops members vs l site) (timeout : Nat) :
    l.shutdown ops.recorded timeout site = (l.cleanShutdown, l, site) := by
  unfold Logger.shutdown
  rw [h.isOver.accepting_eq]
  rfl

/-- Neither the logger nor what it leaves has anybody to stop when it is
dropped. -/
theorem drops (h : Dismissed ops members vs l site) :
    (l.drop ops.recorded site).2.world = site.world
      ∧ (∀ d s, l.dispatcher? = some d → d.drop (Crew.handler ops.recorded) s = (d, s))
      ∧ (AppenderSet.mk l.backend.members).drop ops.recorded site.world = ([], site.world) := by
  refine ⟨?_, fun d s hd => ?_, ?_⟩
  · show (l.shutdown ops.recorded l.settings.shutdownTimeout site).2.2.world = _
    rw [h.shutdown]
  · unfold Dispatcher.drop Dispatcher.shutdown
    rw [h.detached d hd]
    rfl
  · rw [h.nobody]
    rfl

end Dismissed

-- ======================================================= what is lent

/-- What nothing that is done to appenders disturbs holds along every run. -/
theorem keeps_stable {T : Type} {ops : AppenderOps α T} {I : T → Prop} (h : ops.Stable I) :
    Keeps ops (fun f => ∀ site, I site.world → I (f site).world) fun _ _ site => I site.world where
  offer _ hI := hI
  mark _ hI := hI
  status _ hI := hI
  outside hf hI := hf _ hI
  step hI := by
    unfold dispatch
    split
    · exact hI
    · dsimp only [Dispatcher.settleFor]
      split
      · next hs => exact h.step hs hI
      · exact hI
  ask _ hI := hI
  publish _ _ hI := hI
  retry _ hI := hI
  deliver _ _ hI := h.run _ _ hI
  flushed _ hI := h.run .flush _ hI

theorem stable_shutdown {T : Type} {ops : AppenderOps α T} {I : T → Prop} (h : ops.Stable I)
    (timeout : Nat) {l : Logger α} {site : Site T} (hI : I site.world) :
    I (l.shutdown ops timeout site).2.2.world := by
  unfold shutdown
  split
  · exact hI
  · dsimp only
    split
    · split
      · exact (keeps_stable h).stopAsync (e := []) timeout hI
      · exact hI
    · exact hI
    · exact h.run .stop _ hI

/-- What appenders were lent when the logger was built is still lent to
those that have not been dropped when it has been shut down. -/
theorem ledger_shutdown {B : List α → S → Prop} (h : ops.Lends B) {members : List α}
    {site : Site S} (hB : B members site.world) {before : List (LoggerMove S)}
    (hbefore : ∀ move ∈ before, move.isShutdown = false)
    (houtside : ∀ f, .outside f ∈ before → ∀ as site, B as site.world → B as (f site).world)
    (haccepting : l.accepting = true) (timeout : Nat) :
    Ledger B members (l.actRecorded ops (before ++ [.shutdown timeout]) site).2.world := by
  have hstable := h.stable members
  have hstart : Ledger B members (site.recorded : Site (Recorded α S)).world := fun as has =>
    h.perm has.symm hB
  have houtside' : ∀ f', .outside f' ∈ before.map (·.onSite Recorded.lift) →
      ∀ site : Site (Recorded α S),
        Ledger B members site.world → Ledger B members (f' site).world := by
    intro f' hf'
    obtain ⟨f, hf, rfl⟩ := LoggerMove.outside_of_onSite hf'
    exact fun site hledger as has => houtside f hf as site.plain (hledger as has)
  obtain ⟨hrun, -⟩ := (keeps_stable hstable).actAll (e := [])
    (LoggerMove.live_onSite Recorded.lift hbefore) houtside' haccepting hstart
  rw [actRecorded_shutdown]
  exact stable_shutdown hstable timeout hrun

-- ============================================================== theorem

theorem apart_of_lifted {moves : List (LoggerMove S)}
    {f' : Site (Recorded α S) → Site (Recorded α S)}
    (h : .outside f' ∈ moves.map (·.onSite Recorded.lift)) : Apart f' := by
  obtain ⟨f, -, rfl⟩ := LoggerMove.outside_of_onSite h
  exact fun _ => rfl

/-- The first shutdown of a logger that was built, if it drains in time. -/
theorem dismissed_of_build {env : Dict String} {parts : LoggerParts α} {site₀ site : Site S}
    {l : Logger α} (hbuild : build ops env parts site₀ = (.ok l, site))
    {before : List (LoggerMove S)} (hbefore : ∀ move ∈ before, move.isShutdown = false)
    (timeout : Nat) :
    let o := l.actRecorded ops before site
    let stop := o.1.shutdown ops.recorded timeout o.2
    parts.mode = .sync ∨ stop.1 = true →
      Dismissed ops parts.appenders (LoggerMove.offered l.settings before) stop.2.1 stop.2.2 := by
  intro o stop hdrained
  obtain ⟨moves, hmoves⟩ : ∃ moves : List (LoggerMove (Recorded α S)),
    moves = before.map (·.onSite Recorded.lift) := ⟨_, rfl⟩
  have hlive : ∀ move ∈ moves, move.isShutdown = false :=
    hmoves ▸ LoggerMove.live_onSite Recorded.lift hbefore
  have houtside : ∀ f', .outside f' ∈ moves → Apart f' := fun f' hf' =>
    apart_of_lifted (hmoves ▸ hf')
  have hoffered : [] ++ LoggerMove.offered l.settings moves
      = LoggerMove.offered l.settings before := by
    rw [hmoves, LoggerMove.offered_onSite, List.nil_append]
  obtain ⟨backend, hbackend, hfresh⟩ := fresh_of_build hbuild
  have haccepting : l.accepting = true := by
    rw [hfresh]
    rfl
  rcases build_eq_ok hbuild with ⟨hmode, hstart⟩ | ⟨hmode, hstart⟩
  -- the set is attended from the start, and stops with its logger
  · obtain ⟨hdirect, -⟩ := direct_actAll ops.recorded moves hstart site.recorded
    unfold startBackend at hbackend
    rw [hmode] at hbackend
    obtain rfl := (Except.ok.inj hbackend).symm
    have hattends := attends_start ops (settingsOf env parts) .fresh parts.appenders site.status
      site.world
    rw [← hfresh] at hattends
    obtain ⟨hran, hopen⟩ :=
      (keeps_attends ops parts.appenders).actAll hlive houtside haccepting hattends
    rw [hoffered] at hran
    subst hmoves
    exact hran.dismissed hdirect hopen timeout
  -- the crew is staffed from the start, and a clean shutdown ends its work
  · obtain ⟨hbooked, -⟩ := booked_actAll ops.recorded moves hstart site.recorded
    obtain ⟨size, rfl⟩ := startBackend_async hmode hbackend
    have hstaffed := staffed_start ops (settingsOf env parts) size parts.appenders site.status
      site.world
    rw [← hfresh] at hstaffed
    obtain ⟨hran, hopen⟩ :=
      (keeps_staffed ops parts.appenders).actAll hlive houtside haccepting hstaffed
    have hclean : stop.1 = true := hdrained.resolve_left fun hsync => by
      rw [hmode] at hsync
      cases hsync
    rw [hoffered] at hran
    subst hmoves
    exact hran.dismissed hbooked hopen hclean

/-- Build a logger in either mode and let anything happen to it but a
shutdown, and then shut it down. If that is in time, which it always is for
a synchronous logger, the appenders were called for what was published, all
of it and in order, and after that each was stopped and dropped, in one go,
whatever its stop came to; so they have given back all that they were lent,
as the library's appenders their handles on managers
(`MixedAppender.lends`). From then on nothing is done to any appender,
whatever happens to the logger, further shutdowns included: each tells what
the first one came to and leaves everything as it is, and so does the drop
of the logger, of its dispatcher and of what is left of its set. A logger
that is dropped and was not shut down is shut down by that. -/
theorem appenders_stopped_once (ops : AppenderOps α S) (env : Dict String) (parts : LoggerParts α)
    (site₀ site : Site S) (l : Logger α) (hbuild : build ops env parts site₀ = (.ok l, site))
    (before : List (LoggerMove S)) (hbefore : ∀ move ∈ before, move.isShutdown = false) :
    ((l.actRecorded ops before site).1.drop ops.recorded
        (l.actRecorded ops before site).2).2.world
      = (l.actRecorded ops (before ++ [.shutdown l.settings.shutdownTimeout]) site).2.world
    ∧ ∀ timeout : Nat,
      let plain := l.actAll ops before site
      let first := (plain.1.shutdown ops timeout plain.2).1
      let stopped := l.actRecorded ops (before ++ [.shutdown timeout]) site
      parts.mode = .sync ∨ first = true →
        (∃ (calls : List SetCall) (published : List EventValues),
          SetCall.events calls = published.map EventSlot.ofValues
            ∧ published.Sublist (LoggerMove.offered l.settings before)
            ∧ published.length = stopped.1.metrics.published
            ∧ stopped.2.world.acts
              = calls.flatMap (fun c => parts.appenders.flatMap (c.errand.actsOn ops))
                ++ parts.appenders.flatMap fun a =>
                  [(a, .begun .stop), (a, .ended .stop), (a, .dropped)])
        ∧ (∀ B : List α → S → Prop, ops.Lends B →
          (∀ f, .outside f ∈ before → ∀ as site, B as site.world → B as (f site).world) →
          B parts.appenders site.world → B [] stopped.2.world.state)
        ∧ ∀ later : List (LoggerMove S),
          let o := l.actRecorded ops (before ++ .shutdown timeout :: later) site
          l.actAll ops (before ++ .shutdown timeout :: later) site = (o.1, o.2.plain)
            ∧ o.2.world.deeds = stopped.2.world.deeds
            ∧ (∀ timeout', o.1.shutdown ops.recorded timeout' o.2 = (first, o.1, o.2))
            ∧ (o.1.drop ops.recorded o.2).2.world = o.2.world
            ∧ (∀ d s, o.1.dispatcher? = some d → d.drop (Crew.handler ops.recorded) s = (d, s))
            ∧ (AppenderSet.mk o.1.backend.members).drop ops.recorded o.2.world
              = ([], o.2.world) := by
  obtain ⟨backend, -, hfresh⟩ := fresh_of_build hbuild
  have haccepting : l.accepting = true := by
    rw [hfresh]
    rfl
  constructor
  -- dropping the logger is a shutdown with its own timeout
  · have hsettings : (l.actRecorded ops before site).1.settings = l.settings :=
      settings_actAll ops.recorded _ l site.recorded
    rw [actRecorded_shutdown, ← hsettings]
    rfl
  intro timeout plain first stopped hdrained
  -- the recorded run is cut at the shutdown
  obtain ⟨o₁, ho₁⟩ : ∃ o₁, o₁ = l.actRecorded ops before site := ⟨_, rfl⟩
  obtain ⟨stop, hstop⟩ : ∃ stop, stop = o₁.1.shutdown ops.recorded timeout o₁.2 := ⟨_, rfl⟩
  have hfirst : stop.1 = first := by
    show _ = ((l.actAll ops before site).1.shutdown ops timeout (l.actAll ops before site).2).1
    rw [actAll_plain, ← ho₁, hstop]
    exact shutdown_plain ops timeout o₁.1 o₁.2
  have hlater : ∀ later : List (LoggerMove S),
      l.actRecorded ops (before ++ .shutdown timeout :: later) site
        = stop.2.1.actAll ops.recorded (later.map (·.onSite Recorded.lift)) stop.2.2 := by
    intro later
    rw [actRecorded_shutdown, hstop, ho₁]
  have hstopped : stopped = stop.2 := hlater []
  -- by then every member was stopped and dropped, in this order
  have hdismissed : Dismissed ops parts.appenders (LoggerMove.offered l.settings before) stop.2.1
      stop.2.2 := by
    have hbuilt := dismissed_of_build hbuild hbefore timeout
    dsimp only at hbuilt
    rw [← ho₁, ← hstop, hfirst] at hbuilt
    exact hbuilt hdrained
  refine ⟨?_, ?_, ?_⟩
  · rw [hstopped]
    exact hdismissed.stopped
  · intro B hlends houtside hB
    obtain ⟨calls, published, -, -, -, hacts⟩ := hdismissed.stopped
    have hledger := ledger_shutdown hlends hB hbefore houtside haccepting timeout
    rw [hlater] at hledger
    rw [hstopped]
    exact hledger.closed hacts
  · intro later o
    have houtside : ∀ f' : Site (Recorded α S) → Site (Recorded α S),
        .outside f' ∈ later.map (·.onSite Recorded.lift) → Apart f' :=
      fun _ hf' => apart_of_lifted hf'
    obtain ⟨hstill, hdeeds, hclean⟩ := hdismissed.actAll houtside
    rw [← hlater later] at hstill hdeeds hclean
    have hanswer : ∀ timeout', o.1.shutdown ops.recorded timeout' o.2 = (first, o.1, o.2) := by
      intro timeout'
      have hfirst' : o.1.cleanShutdown = first := by
        rw [show o.1.cleanShutdown = _ from hclean, ← hfirst, hstop]
        exact cleanShutdown_shutdown ops.recorded timeout o₁.1 o₁.2
      rw [hstill.shutdown, hfirst']
    refine ⟨actAll_plain ops _ l site, ?_, hanswer, hstill.drops⟩
    rw [hstopped]
    exact hdeeds

end Logger

namespace Logger.Farewell

/-- An appender of the application that panics when it is stopped. -/
def custom : AppenderOps Unit Unit := Samples.appender "custom" fun c s =>
  (match c with
    | .append .. | .flush => .done
    | .stop => .panicked "not now", s)

def ops : AppenderOps (MixedAppender Unit) (Host Unit) := MixedAppender.ops custom

def empty : Registry Devices := .empty .initial

/-- One handle is taken on one manager. -/
def registry : Registry Devices := Samples.inUse "log" (.console .stderr) .initial

/-- The handle is that of an appender of the library. -/
def appenders : List (MixedAppender Unit) :=
  [.managed ⟨⟨"log", ⟨0⟩, Samples.plainly, none⟩, .console .stderr⟩, .custom ()]

def parts : LoggerParts (MixedAppender Unit) := Samples.parts .async [] appenders

def site : Site (Host Unit) := Samples.site ⟨registry, ()⟩

def logger : Logger (MixedAppender Unit) := Samples.asynchronous [] appenders

/-- Three calls on a ring for two: the last caller waits until there is room. -/
def before : List (LoggerMove (Host Unit)) :=
  [.log (.ofText "a"), .log (.ofText "b"), .log (.ofText "c"), .flush]

def later : List (LoggerMove (Host Unit)) := [.log (.ofText "late"), .flush, .shutdown 7]

theorem borrowed_registry : Registry.Borrowed empty [⟨0⟩] registry :=
  have hsound : empty.Sound := fun _ _ he => nomatch he
  (Registry.borrowed_start hsound).make rfl rfl

end Logger.Farewell

open Logger.Farewell in
theorem Logger.appenders_stopped_once_sample :
    let stopped := logger.actRecorded ops (before ++ [.shutdown 0]) site
    let o := logger.actRecorded ops (before ++ .shutdown 0 :: later) site
    build ops .empty parts site = (.ok logger, site)
      ∧ (∀ move ∈ before, move.isShutdown = false)
      ∧ stopped.1.metrics.published = 3
      ∧ (stopped.2.world.acts.map Prod.snd).drop 16
        = [.begun .stop, .ended .stop, .dropped, .begun .stop, .ended .stop, .dropped]
      ∧ stopped.2.world.state.registry.entries = .empty
      ∧ o.2.world.deeds = stopped.2.world.deeds
      ∧ o.1.shutdown ops.recorded 7 o.2 = (true, o.1, o.2) := by
  intro stopped o
  have hbuild : build ops .empty parts site = (.ok logger, site) :=
    Samples.build_parts ops .async [] appenders site
  have hbefore : ∀ move ∈ before, move.isShutdown = false := by
    intro move hmove
    simp only [before, List.mem_cons, List.not_mem_nil, or_false] at hmove
    rcases hmove with rfl | rfl | rfl | rfl <;> rfl
  have hclean : ((logger.actAll ops before site).1.shutdown ops 0
      (logger.actAll ops before site).2).1 = true := by decide +kernel
  obtain ⟨-, hshutdown⟩ :=
    appenders_stopped_once ops .empty parts site site logger hbuild before hbefore
  obtain ⟨-, hreturned, hlater⟩ := hshutdown 0 (.inr hclean)
  obtain ⟨-, hdeeds, hanswer, -⟩ := hlater later
  have hborrowed : Registry.Borrowed empty [] stopped.2.world.state.registry :=
    hreturned _ (MixedAppender.lends custom empty) (fun f hf => by simp [before] at hf)
      borrowed_registry
  obtain ⟨hentries, -⟩ := hborrowed.returned fun _ _ he => nomatch he
  refine ⟨hbuild, hbefore, by decide +kernel, by decide +kernel, hentries, hdeeds, ?_⟩
  exact (hanswer 7).trans (congrArg (·, o.1, o.2) hclean)

end LogPipeline
