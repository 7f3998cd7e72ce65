/-
A set of appenders as the handler of a dispatcher, where no appender is
ever held up. Then a round is the errand itself (`begin_free`), every
call of the handler ends (`prompt_handler`), and a dispatcher's calls
come to what the set alone makes of them, deliveries, flushes and the
stop at the end (`replay_serve`, `replay_serveOut`).
-/
import LogPipeline.Appender.Crew
import LogPipeline.Proofs.Appender.Errands
import LogPipeline.Proofs.Dispatcher.Replay

namespace LogPipeline

/-- What a dispatcher's task asks of a set at work. -/
def Task.setCall? : Task → Option SetCall
  | event slot endOfBatch => some (.deliver slot endOfBatch)
  | flush => some .flush
  | shutdown => none

namespace Crew

variable {α S : Type} {ops : AppenderOps α S}

/-- The events that a handler was shown are those that it delivers. -/
theorem events_setCalls (calls : List HandlerCall) :
    SetCall.events ((calls.map (·.task)).filterMap Task.setCall?) = shownEvents calls := by
  unfold SetCall.events shownEvents
  rw [List.filterMap_filterMap, List.filterMap_map]
  exact congrArg (List.filterMap · calls) (funext fun c => by
    dsimp only [Function.comp_apply]
    cases c.task <;> rfl)

/-- Where nobody is held up, the members are visited as in an errand. -/
theorem advance_free (hfree : ∀ c a s, ops.isHeld c a s = false) (errand : Errand)
    (size : Nat) (members : List α) (t : Tally) (s : S) :
    advance ops errand size members t s
      = (.ended (errand.visitAll ops members t s).1,
        (errand.visitAll ops members t s).2) := by
  induction members generalizing t s with
  | nil => rfl
  | cons a rest ih =>
      unfold advance
      rw [Errand.visitAll_cons]
      cases hc : errand.callOn ops a with
      | none =>
          rw [Errand.visit_none hc]
          exact ih t s
      | some c =>
          have hvisit : errand.conclude ops c a t (ops.enter c a s)
              = errand.visit ops a t s := by
            unfold Errand.visit
            rw [hc]
          dsimp only
          rw [hfree, hvisit, if_neg Bool.false_ne_true, ih]

theorem begin_free (hfree : ∀ c a s, ops.isHeld c a s = false) (errand : Errand)
    (after : AppenderSet α) (c : Crew α S) :
    begin ops errand after c
      = ⟨some (.ofExcept (c.set.run ops errand c.world).result),
        (c.set.run ops errand c.world).reports,
        ⟨after, none, (c.set.run ops errand c.world).state⟩⟩ := by
  unfold begin
  rw [advance_free hfree]
  rfl

/-- Appenders that are never held up make a handler whose calls all end. -/
theorem prompt_handler (hfree : ∀ c a s, ops.isHeld c a s = false) :
    (handler ops).Prompt where
  onEvent _ _ c := congrArg (·.outcome.isSome) (begin_free hfree _ _ c)
  onFlush c := congrArg (·.outcome.isSome) (begin_free hfree _ _ c)
  onShutdown c := congrArg (·.outcome.isSome) (begin_free hfree _ _ c)

/-- A dispatcher's calls before the shutdown. -/
theorem replay_serve (hfree : ∀ c a s, ops.isHeld c a s = false) {tasks : List Task}
    (htasks : ∀ task ∈ tasks, task.isShutdown = false) (set : AppenderSet α) (s : S) :
    (handler ops).replay tasks ⟨set, none, s⟩
      = ⟨set, none, (set.serve ops (tasks.filterMap Task.setCall?) s).state⟩ := by
  induction tasks generalizing s with
  | nil => rfl
  | cons task rest ih =>
      have hrest := fun s => @ih (fun t ht => htasks t (List.mem_cons_of_mem _ ht)) s
      show (handler ops).replay rest ((handler ops).answer task ⟨set, none, s⟩).state = _
      cases task with
      | event slot endOfBatch =>
          show (handler ops).replay rest (begin ops (.deliver slot endOfBatch) set _).state = _
          rw [begin_free hfree, hrest]
          rfl
      | flush =>
          show (handler ops).replay rest (begin ops .flush set _).state = _
          rw [begin_free hfree, hrest]
          rfl
      | shutdown => exact absurd (htasks .shutdown List.mem_cons_self) (by simp [Task.isShutdown])

/-- All of a dispatcher's calls. -/
theorem replay_serveOut (hfree : ∀ c a s, ops.isHeld c a s = false) {tasks : List Task}
    (htasks : ∀ task ∈ tasks, task.isShutdown = false) (set : AppenderSet α) (s : S) :
    ((handler ops).answer .shutdown ((handler ops).replay tasks ⟨set, none, s⟩)).state.world
      = (set.serveOut ops (tasks.filterMap Task.setCall?) s).state := by
  rw [replay_serve hfree htasks]
  show (begin ops .stop ⟨[]⟩ _).state.world = _
  rw [begin_free hfree]
  rfl

end Crew

end LogPipeline
