/-
What the members of a set at work go through, from the first call to the
drop. A dispatcher calls the set for one task after another, and a round
may be held up in the middle. `Crew.Career` says that at any moment what
was done to the members and what the round that is held up owes them is
what the calls on record ask for, call by call and member by member, and
that the set is given up with the shutdown.

A dispatcher's accounts (`Service.Inv`) say which calls there are in each
phase, so a career goes on with each of its steps (`career_step`). When
the dispatcher has finished, every member has been stopped once, after
everything else, and dropped right then (`career_finished`).
-/
import LogPipeline.Proofs.Appender.Recording

namespace LogPipeline

namespace Task

/-- The errand that the task sends a set on. -/
def errand : Task → Errand
  | event slot endOfBatch => .deliver slot endOfBatch
  | flush => .flush
  | shutdown => .stop

end Task

/-- A step of a dispatcher whose handler is held up goes on with the call. -/
theorem Dispatcher.handler_step_held {H : Type} {h : Handler H} {d d' : Dispatcher}
    {s s' : Shared H} (hheld : d.phase.isHeld = true) (hs : step h d s = some (d', s')) :
    ∃ x, h.resume s.handler = some x ∧ s'.handler = x.state := by
  cases stepped_of_step hs with
  | eventOn _ hc hafter =>
      exact ⟨_, hc, (congrArg (·.2.handler) hafter).symm.trans (handler_afterEvent ..)⟩
  | flushOn _ hc hafter =>
      exact ⟨_, hc, (congrArg (·.2.handler) hafter).symm.trans (handler_afterFlush ..)⟩
  | stopOn _ hc hafter =>
      exact ⟨_, hc, (congrArg (·.2.handler) hafter).symm.trans (handler_afterStop ..)⟩
  | close hphase | drain hphase | dry hphase | event hphase | due hphase | undue hphase
    | flush hphase | store hphase | again hphase | leave hphase | giveUp hphase | depart hphase
    | stop hphase =>
      rw [hphase] at hheld
      cases hheld

namespace Service

variable {H : Type} {m₀ : Metrics} {l₀ : StatusLog} {sv : Service (Noted H)} {d : Dispatcher}
  {s : Shared (Noted H)}

/-- A dispatcher that takes a step and is not held up has no call open, and
its handler is not shut down. -/
theorem allOver_of_step {h : Handler (Noted H)} (hinv : sv.Inv m₀ l₀)
    (hheld : sv.phase.isHeld = false) (hs : sv.dispatcher.step h sv.shared = some (d, s)) :
    AllOver sv.calls := by
  cases Dispatcher.stepped_of_step hs with
  | eventOn hphase | flushOn hphase | stopOn hphase =>
      rw [show sv.phase = _ from hphase] at hheld
      cases hheld
  | close hphase | drain hphase | dry hphase | event hphase | due hphase | undue hphase
    | flush hphase | store hphase | again hphase | leave hphase | giveUp hphase | depart hphase
    | stop hphase =>
      exact (hinv.inPhase hphase).2.1

/-- Where it is held up, the last call is open. -/
theorem open_of_held (hinv : sv.Inv m₀ l₀) (hheld : sv.phase.isHeld = true) :
    ∃ init task soFar, sv.calls = init ++ [⟨task, soFar, none⟩] := by
  have hshape := hinv.shape
  cases hphase : sv.phase with
  | handling =>
      rw [hphase] at hshape
      obtain ⟨init, slot, endOfBatch, soFar, -, hcalls⟩ := hshape
      exact ⟨init, _, soFar, hcalls⟩
  | heldInFlush handled ticket =>
      rw [hphase] at hshape
      obtain ⟨init, soFar, -, hcalls⟩ := hshape
      exact ⟨init, _, soFar, hcalls⟩
  | heldInStop =>
      rw [hphase] at hshape
      obtain ⟨init, soFar, -, hcalls⟩ := hshape
      exact ⟨init, _, soFar, hcalls⟩
  | _ =>
      rw [hphase] at hheld
      cases hheld

end Service

-- ============================================================== careers

namespace Crew

variable {α S : Type} {ops : AppenderOps α S} {members : List α}
  {n : Noted (Crew α (Recorded α S))}

/-- What the calls have the members go through. -/
def actsOf (ops : AppenderOps α S) (members : List α) (calls : List HandlerCall) :
    List (α × Act) :=
  calls.flatMap fun c => members.flatMap (c.task.errand.actsOn ops)

/-- What the round that is held up, if any, has still to do. -/
def owed (ops : AppenderOps α S) (round : Option (Round α)) : List (α × Act) :=
  round.elim [] (owedBy ops)

/-- The members of the set have gone through what the calls ask for, but
for what the round still owes them. -/
structure Career (ops : AppenderOps α S) (members : List α)
    (n : Noted (Crew α (Recorded α S))) : Prop where
  /-- Only a call that is open is held up. -/
  idle : (∀ c ∈ n.calls, c.hasEnded = true) → n.state.round = none
  set_eq : n.state.set = ⟨if n.calls.any (·.task.isShutdown) then [] else members⟩
  acts_eq : n.state.world.acts ++ owed ops n.state.round = actsOf ops members n.calls

/-- A set that has had no call yet. -/
theorem career_start (ops : AppenderOps α S) (members : List α) (s : S) :
    Career ops members ⟨⟨⟨members⟩, none, ⟨s, []⟩⟩, []⟩ where
  idle _ := rfl
  set_eq := rfl
  acts_eq := rfl

/-- The calls ask for the same, however far the last of them has come. -/
theorem actsOf_concat (init : List HandlerCall) (c : HandlerCall) :
    actsOf ops members (init ++ [c])
      = actsOf ops members init ++ members.flatMap (c.task.errand.actsOn ops) := by
  unfold actsOf
  rw [List.flatMap_append, List.flatMap_singleton]

/-- A call that is over leaves no round, and one that is held up owes what
is left of its errand. -/
theorem told_progress {T : Type} (ops : AppenderOps α S) (errand : Errand) (size : Nat)
    (set : AppenderSet α) (o : Progress α × List StatusEntry × T) :
    (told errand size set o).state.set = set
      ∧ (told errand size set o).state.world = o.2.2
      ∧ owed ops (told errand size set o).state.round = o.1.owed ops
      ∧ ((told errand size set o).outcome.isSome = true →
        (told errand size set o).state.round = none) := by
  obtain ⟨progress, reports, s⟩ := o
  cases progress with
  | ended t => exact ⟨rfl, rfl, rfl, fun _ => rfl⟩
  | held r => exact ⟨rfl, rfl, rfl, fun h => by cases h⟩

/-- Every task begins an errand, and after a shutdown nobody is left. -/
theorem answer_eq (ops : AppenderOps α S) (task : Task) (c : Crew α S) :
    (handler ops).answer task c
      = begin ops task.errand (if task.isShutdown then ⟨[]⟩ else c.set) c := by
  cases task <;> rfl

/-- A call begins. -/
theorem career_begin (h : Career ops members n) (hover : AllOver n.calls) (task : Task) :
    Career ops members ((handler ops.recorded).noted.answer task n).state := by
  have hround := h.idle hover.2
  have hnone : n.calls.any (·.task.isShutdown) = false := List.any_eq_false.2 fun c hc =>
    Bool.eq_false_iff.1 (hover.1 c hc)
  have hset : n.state.set = ⟨members⟩ := by
    rw [h.set_eq, hnone]
    rfl
  have hacts := h.acts_eq
  rw [hround] at hacts
  obtain ⟨x, hx⟩ : ∃ x, x = (handler ops.recorded).answer task n.state := ⟨_, rfl⟩
  have hnoted : ((handler ops.recorded).noted.answer task n).state
      = ⟨x.state, n.calls ++ [⟨task, x.reports, x.outcome⟩]⟩ := by
    rw [hx]
    cases task <;> rfl
  rw [answer_eq, hset] at hx
  unfold begin at hx
  rw [hset] at hx
  obtain ⟨o, ho⟩ : ∃ o, o = advance ops.recorded task.errand (AppenderSet.mk members).size members
    .clean n.state.world := ⟨_, rfl⟩
  rw [show (AppenderSet.mk members).members = members from rfl, ← ho] at hx
  obtain ⟨hset', hworld, howed, hended⟩ :=
    told_progress ops task.errand (AppenderSet.mk members).size
      (if task.isShutdown then ⟨[]⟩ else ⟨members⟩) o
  rw [← hx] at hset' hworld howed hended
  rw [hnoted]
  refine ⟨fun hall => ?_, ?_, ?_⟩
  · exact hended (hall _ (List.mem_append_right _ (List.mem_singleton_self _)))
  · show x.state.set = _
    rw [hset', List.any_append, hnone]
    cases task <;> rfl
  · show x.state.world.acts ++ owed ops x.state.round = _
    rw [hworld, howed, actsOf_concat, ← hacts, ho]
    rw [show owed ops (none : Option (Round α)) = [] from rfl, List.append_nil]
    exact acts_advance task.errand _ members .clean n.state.world

/-- A call that was held up goes on. -/
theorem career_resume {x : Call (Noted (Crew α (Recorded α S)))} {init : List HandlerCall}
    {task : Task} {soFar : List StatusEntry} (h : Career ops members n)
    (hcalls : n.calls = init ++ [⟨task, soFar, none⟩])
    (hx : (handler ops.recorded).noted.resume n = some x) : Career ops members x.state := by
  obtain ⟨y, hy, rfl⟩ := Option.map_eq_some_iff.1 hx
  rw [hcalls, Noted.amend_concat]
  have hset := h.set_eq
  have hacts := h.acts_eq
  rw [hcalls, actsOf_concat] at hacts
  have hy' : resume ops.recorded n.state = some y := hy
  unfold resume at hy'
  cases hround : n.state.round with
  | none =>
      rw [hround] at hy'
      cases hy'
  | some r =>
      rw [hround] at hy' hacts
      dsimp only at hy'
      split at hy'
      · cases hy'
      · have hy'' := Option.some.inj hy'
        obtain ⟨e, he⟩ : ∃ e, e = r.errand.conclude ops.recorded r.call r.member r.tally
          n.state.world := ⟨_, rfl⟩
        rw [← he] at hy''
        obtain ⟨o, ho⟩ : ∃ o, o = advance ops.recorded r.errand r.size r.rest e.1 e.2.2 :=
          ⟨_, rfl⟩
        rw [← ho] at hy''
        obtain ⟨hset', hworld, howed, hended⟩ := told_progress ops r.errand r.size
          n.state.set (o.1, e.2.1 ++ o.2.1, o.2.2)
        rw [hy''] at hset' hworld howed hended
        refine ⟨fun hall => ?_, ?_, ?_⟩
        · exact hended (hall _ (List.mem_append_right _ (List.mem_singleton_self _)))
        · show y.state.set = _
          rw [hset', hset, hcalls, List.any_append, List.any_append]
          rfl
        · show y.state.world.acts ++ owed ops y.state.round = _
          -- the member that was held up is done with, and then the round goes on
          have hconcluded : e.2.2.acts
              = n.state.world.acts ++ r.errand.actsAfter r.call r.member := by
            rw [he]
            exact Errand.acts_conclude r.errand r.call r.member r.tally n.state.world
          have hrest : o.2.2.acts ++ o.1.owed ops
              = e.2.2.acts ++ r.rest.flatMap (r.errand.actsOn ops) := by
            rw [ho]
            exact acts_advance r.errand r.size r.rest e.1 e.2.2
          rw [hconcluded] at hrest
          dsimp only at hworld howed
          rw [hworld, howed, hrest, actsOf_concat, List.append_assoc]
          exact hacts

end Crew

namespace Service

variable {α S : Type} {ops : AppenderOps α S} {members : List α} {m₀ : Metrics} {l₀ : StatusLog}
  {sv : Service (Noted (Crew α (Recorded α S)))} {d : Dispatcher}
  {s : Shared (Noted (Crew α (Recorded α S)))}

/-- A dispatcher's step is a step in the careers of the members. -/
theorem career_step (hinv : sv.Inv m₀ l₀) (h : Crew.Career ops members sv.shared.handler)
    (hs : sv.dispatcher.step (Crew.handler ops.recorded).noted sv.shared = some (d, s)) :
    Crew.Career ops members s.handler := by
  cases hheld : sv.phase.isHeld with
  | true =>
      obtain ⟨init, task, soFar, hcalls⟩ := open_of_held hinv hheld
      obtain ⟨x, hx, heq⟩ := Dispatcher.handler_step_held hheld hs
      rw [heq]
      exact Crew.career_resume h hcalls hx
  | false =>
      rcases Dispatcher.handler_step hheld hs with heq | ⟨task, heq⟩
      · rw [heq]
        exact h
      · rw [heq]
        exact Crew.career_begin h (allOver_of_step hinv hheld hs) task

/-- Once the dispatcher has finished and left nothing behind, the members
have been called for all that was published, and then each was stopped and
dropped, and nobody is left in the set. -/
theorem career_finished (hinv : sv.Inv m₀ l₀) (h : Crew.Career ops members sv.shared.handler)
    (hfinished : sv.dispatcher.isFinished = true) (hclean : sv.dispatcher.abandoned = 0) :
    sv.shared.handler.state.set = ⟨[]⟩ ∧ ∃ calls : List SetCall,
      SetCall.events calls = sv.fates.published.map EventSlot.ofValues
        ∧ sv.shared.handler.state.world.acts
          = calls.flatMap (fun c => members.flatMap (c.errand.actsOn ops))
            ++ members.flatMap (Errand.stop.actsOn ops) := by
  obtain ⟨s₀, hs₀⟩ : ∃ s₀ : Shared (Crew α (Recorded α S)),
    s₀ = ⟨m₀, l₀, sv.shared.handler.state⟩ := ⟨_, rfl⟩
  have hsettled : sv.Settled s₀ :=
    settled_of_finished (by rw [hs₀]; exact hinv) hfinished
  obtain ⟨before, reports, o, hcalls, hover, hshown⟩ := hsettled.shown hclean
  have hcalls' : sv.shared.handler.calls = before ++ [⟨.shutdown, reports, some o⟩] := hcalls
  have hround : sv.shared.handler.state.round = none := by
    refine h.idle fun c hc => ?_
    rw [hcalls'] at hc
    rcases List.mem_append.1 hc with hc | hc
    · exact hover.2 c hc
    · rw [List.mem_singleton.1 hc]
      rfl
  have hset := h.set_eq
  have hacts := h.acts_eq
  rw [hround, show Crew.owed ops none = [] from rfl, List.append_nil, hcalls',
    Crew.actsOf_concat] at hacts
  rw [hcalls', List.any_append] at hset
  refine ⟨by rw [hset]; simp [Task.isShutdown],
    (before.map (·.task)).filterMap Task.setCall?, ?_, ?_⟩
  · rw [Crew.events_setCalls, hshown]
  · rw [hacts]
    refine congrArg (· ++ _) ?_
    clear hcalls hcalls' hacts hset hshown
    -- none of the calls before is a shutdown, so each is a call on the set
    induction before with
    | nil => rfl
    | cons c rest ih =>
        have hrest := ih ⟨fun c' hc' => hover.1 c' (List.mem_cons_of_mem _ hc'),
          fun c' hc' => hover.2 c' (List.mem_cons_of_mem _ hc')⟩
        have hlive := hover.1 c List.mem_cons_self
        unfold Crew.actsOf at hrest ⊢
        rw [List.flatMap_cons, hrest, List.map_cons]
        cases htask : c.task with
        | event slot endOfBatch | flush => rfl
        | shutdown =>
            rw [htask] at hlive
            cases hlive

end Service

end LogPipeline
