/-
What a logger answers to `flush` and to its first `shutdown`, with
appenders that are never held up.

A synchronous logger runs the errand itself, and its answer is that of the
appenders: well if each of them did well (`Errand.result_ok_iff`). An
asynchronous logger has its dispatcher run it. The dispatcher reports what
went wrong and goes on, and the logger is told that the errand is over,
not what it came to; so the answer is always that all is well
(`serving_flush`, `serving_shutdown`). The two are put side by side in
`answers`.
-/
import LogPipeline.Proofs.Logger.Asynchronous
import LogPipeline.Proofs.Logger.Settling
import LogPipeline.Proofs.Ring.Batches
import LogPipeline.Proofs.Samples

namespace LogPipeline

-- ============================================================= errands

/-- Only what is done is without an error. -/
theorem Outcome.error?_eq_none_iff (o : Outcome) : o.error? = none ↔ o = .done := by
  cases o <;> simp [error?]

namespace Errand

variable {α S : Type} {ops : AppenderOps α S} {errand : Errand}

/-- What the calls of an errand come to, one after another. -/
def outcomes (ops : AppenderOps α S) (errand : Errand) : List α → S → List Outcome
  | [], _ => []
  | a :: rest, s =>
    ((errand.callOn ops a).map fun c => (ops.call c a s).1).toList
      ++ outcomes ops errand rest (errand.visit ops a .clean s).2.2

/-- Every call of the errand goes well. -/
def AllDone (ops : AppenderOps α S) (errand : Errand) (members : List α) (s : S) : Prop :=
  ∀ o ∈ errand.outcomes ops members s, o = .done

/-- What was counted before a visit is of no concern to the member. -/
theorem visit_state (a : α) (t : Tally) (s : S) :
    (errand.visit ops a t s).2.2 = (errand.visit ops a .clean s).2.2 := by
  cases hc : errand.callOn ops a with
  | none => rw [visit_none hc, visit_none hc]
  | some c => rw [visit_some hc, visit_some hc]

/-- After a visit there is no first failure if there was none and the call was
done. -/
theorem first_visit (a : α) (t : Tally) (s : S) :
    (errand.visit ops a t s).1.first = none
      ↔ t.first = none ∧ ∀ c, errand.callOn ops a = some c → (ops.call c a s).1 = .done := by
  cases hc : errand.callOn ops a with
  | none =>
      rw [visit_none hc]
      exact ⟨fun h => ⟨h, fun c hc => by cases hc⟩, And.left⟩
  | some c =>
      rw [visit_some hc]
      have hadd : (t.add (ops.call c a s).1).first = none
          ↔ t.first = none ∧ (ops.call c a s).1 = .done := by
        rw [← Outcome.error?_eq_none_iff]
        unfold Tally.add
        cases (ops.call c a s).1.error? <;> cases t.first <;> simp
      refine hadd.trans (and_congr_right fun _ => ⟨fun h c' hc' => ?_, fun h => h c rfl⟩)
      cases hc'
      exact h

/-- No error has been noted just if there was none before, and none since. -/
theorem first_visitAll (ops : AppenderOps α S) (errand : Errand) (members : List α) (t : Tally)
    (s : S) :
    (errand.visitAll ops members t s).1.first = none
      ↔ t.first = none ∧ errand.AllDone ops members s := by
  induction members generalizing t s with
  | nil => exact ⟨fun h => ⟨h, fun o ho => by cases ho⟩, And.left⟩
  | cons a rest ih =>
      rw [visitAll_cons]
      dsimp only
      rw [ih, first_visit, visit_state, and_assoc]
      refine and_congr_right fun _ => ?_
      unfold AllDone
      rw [outcomes]
      cases errand.callOn ops a with
      | none => simp
      | some c => simp

/-- Flushing and stopping go well just if each call does. -/
theorem result_ok_iff (herrand : errand = .flush ∨ errand = .stop) (set : AppenderSet α) (s : S) :
    (set.run ops errand s).result = .ok () ↔ errand.AllDone ops set.members s := by
  have hfirst := first_visitAll ops errand set.members .clean s
  rw [← (hfirst.trans (and_iff_right rfl))]
  unfold AppenderSet.run
  rcases herrand with rfl | rfl
  · dsimp only [result]
    cases (Errand.visitAll ops .flush set.members .clean s).1.first <;> simp
  · dsimp only [result]
    cases (Errand.visitAll ops .stop set.members .clean s).1.first <;> simp

end Errand

namespace Logger

variable {α S : Type} {ops : AppenderOps α S} {l : Logger α} {d : Dispatcher}

-- ========================================================= synchronous

/-- A synchronous logger has nobody to wait for. -/
theorem settleFor_sync (ops : AppenderOps α S) {work : Option (EventSlot × AppenderSet α)}
    (fuel : Nat) (site : Site S) (hbackend : l.backend = .sync work) :
    (settleFor ops fuel l site).1.backend = .sync work
      ∧ (settleFor ops fuel l site).1.accepting = l.accepting := by
  induction fuel generalizing l site with
  | zero =>
      unfold settleFor runDispatcher
      rw [hbackend]
      exact ⟨hbackend, rfl⟩
  | succ fuel ih =>
      have hrun : l.runDispatcher ops site = (l, site) := by
        unfold runDispatcher
        rw [hbackend]
      have hretry : ∀ (ws : List Ring.Waiter) (l : Logger α), l.backend = .sync work →
          ws.foldl retryWaiter l = l := by
        intro ws l hl
        induction ws with
        | nil => rfl
        | cons w rest ih =>
            have hw : l.retryWaiter w = l := by
              unfold retryWaiter
              rw [hl]
            rw [List.foldl_cons, hw, ih]
      have hall : l.retryWaiters = { l with waiters := [] } := hretry _ _ hbackend
      unfold settleFor
      rw [hrun]
      dsimp only
      rw [hall]
      split
      · exact ih site hbackend
      · exact ⟨hbackend, rfl⟩

/-- Calls leave a synchronous logger its appenders. -/
theorem callAll_sync (ops : AppenderOps α S) {set : AppenderSet α} (calls : List LoggerCall)
    (site : Site S) (haccepting : l.accepting = true)
    (hbackend : ∃ slot, l.backend = .sync (some (slot, set))) :
    (l.callAll ops calls site).1.accepting = true
      ∧ ∃ slot, (l.callAll ops calls site).1.backend = .sync (some (slot, set)) := by
  induction calls generalizing l site with
  | nil => exact ⟨haccepting, hbackend⟩
  | cons c rest ih =>
      obtain ⟨slot, hslot⟩ := hbackend
      have hcall : (l.call ops c site).1.accepting = true
          ∧ ∃ slot, (l.call ops c site).1.backend = .sync (some (slot, set)) := by
        cases c with
        | publish v =>
            show (l.publish ops v site).1.accepting = true ∧ _
            unfold call publish
            rw [haccepting, hslot]
            exact ⟨haccepting, _, rfl⟩
        | settle =>
            obtain ⟨hbackend', haccepting'⟩ :=
              settleFor_sync ops l.waiters.length site hslot
            exact ⟨haccepting'.trans haccepting, slot, hbackend'⟩
        | flush =>
            unfold call flush
            rw [hslot]
            exact ⟨haccepting, slot, hslot⟩
      exact ih _ hcall.1 hcall.2

-- ======================================================== asynchronous

/-- An asynchronous logger in use, to which nobody has asked to stop. -/
structure Serving (l : Logger α) (d : Dispatcher) : Prop where
  tended : ∃ fates, Tended fates l.waiters l d
  stopRequested_eq : d.stopRequested = false
  attached_eq : d.attached = true
  accepting_eq : l.accepting = true

/-- A logger on a new ring is in use. -/
theorem serving_start {size : Nat} {set : AppenderSet α} (haccepting : l.accepting = true)
    (hwaiters : l.waiters = []) (hbackend : l.backend = .async (.onNewRing size) set none) :
    l.Serving (.onNewRing size) where
  tended := by
    refine ⟨[], ⟨set, none, hbackend⟩, rfl, ?_, hwaiters ▸ .start⟩
    exact {
      tracks := (Ring.tracks_ofSize size).take rfl
      lent_eq := rfl
      taken_eq := rfl
      closed_eq := rfl
      stopRequested := fun hc => by cases hc
      expired_eq := rfl
      abandoned_eq := rfl
      covered_le := Nat.le_refl 0
      completed_eq := rfl }
  stopRequested_eq := rfl
  attached_eq := rfl
  accepting_eq := haccepting

theorem serving_publish (h : l.Serving d) (v : EventValues) (site : Site S) :
    ∃ d', (l.publish ops v site).1.Serving d' := by
  obtain ⟨fates, ht⟩ := h.tended
  obtain ⟨set, round, hbackend⟩ := ht.backend_eq
  have hopen : d.ring.closed = false := by
    rw [ht.calm.closed_eq]
    refine Bool.eq_false_iff.2 fun hclosed => ?_
    have hstop := ht.calm.stopRequested hclosed
    rw [h.stopRequested_eq] at hstop
    cases hstop
  obtain ⟨ring, hring⟩ : ∃ ring, ring = { d.ring with claimed := d.ring.claimed + 1 } := ⟨_, rfl⟩
  have hreserve : d.ring.reserve = some (d.ring.claimed, ring) := by
    unfold Ring.reserve
    rw [hring, if_neg (Bool.eq_false_iff.1 hopen)]
  -- the caller first takes a sequence, and then asks for its cell like one that waits
  obtain ⟨l₁, hl₁⟩ : ∃ l₁, l₁ = { l with backend := .async { d with ring } set round } := ⟨_, rfl⟩
  have ht₁ : Tended (fates ++ [.reserved])
      (⟨d.ring.claimed, v⟩ :: ([] ++ l₁.waiters)) l₁ { d with ring } := by
    rw [hl₁, hring, ← ht.calm.tracks.length_eq]
    refine ⟨⟨set, round, rfl⟩, ht.phase_eq, { ht.calm with tracks := ?_ }, ht.attended.draw v⟩
    rw [ht.calm.tracks.length_eq]
    exact ht.calm.tracks.draw rfl fun hc => by cases hc
  obtain ⟨fates', cells, ht', -, haccepting⟩ := tended_retryWaiter [] ht₁
  have hlater : (l.publish ops v site).1.backend = (l₁.retryWaiter ⟨d.ring.claimed, v⟩).backend
      ∧ (l.publish ops v site).1.waiters = (l₁.retryWaiter ⟨d.ring.claimed, v⟩).waiters
      ∧ (l.publish ops v site).1.accepting = l.accepting := by
    unfold publish publishAsync
    rw [h.accepting_eq, hbackend, hl₁]
    unfold retryWaiter Ring.retry
    simp only [hreserve]
    rcases ring.confirm d.ring.claimed with ⟨answer, ring'⟩
    cases answer <;> exact ⟨rfl, rfl, rfl⟩
  obtain ⟨hbackend', hwaiters, hsame⟩ := hlater
  refine ⟨withCells { d with ring } cells, ⟨fates', ?_⟩, h.stopRequested_eq, h.attached_eq,
    hsame.trans h.accepting_eq⟩
  rw [hwaiters]
  exact { ht' with backend_eq := hbackend' ▸ ht'.backend_eq }

/-- Once it has settled, its ring is empty and every ticket is flushed. -/
theorem serving_settle (hp : (Crew.handler ops).Prompt) (h : l.Serving d) (site : Site S) :
    ∃ d', (l.settle ops site).1.Serving d' ∧ Dispatcher.Same d d'
      ∧ d'.ring.consumed = d'.ring.claimed ∧ d'.completed = d'.requested := by
  obtain ⟨fates, ht⟩ := h.tended
  obtain ⟨d', hstill, haccepting⟩ := still_settle hp ht site
  obtain ⟨fates', ht', hconsumed, hcompleted⟩ := hstill.open h.stopRequested_eq
  exact ⟨d', ⟨⟨fates', ht'⟩, hstill.same.stopRequested_eq.trans h.stopRequested_eq,
    hstill.same.attached_eq.trans h.attached_eq, haccepting.trans h.accepting_eq⟩, hstill.same,
    hconsumed, hcompleted⟩

theorem Serving.dispatcher_eq (h : l.Serving d) : l.dispatcher? = some d := by
  obtain ⟨fates, ht⟩ := h.tended
  obtain ⟨set, round, hbackend⟩ := ht.backend_eq
  unfold dispatcher?
  rw [hbackend]

theorem Serving.isRunning (h : l.Serving d) : d.isRunning = true := by
  obtain ⟨fates, ht⟩ := h.tended
  unfold Dispatcher.isRunning Dispatcher.isFinished
  rw [h.attached_eq, ht.phase_eq]
  rfl

/-- Something about the dispatcher is changed from outside. -/
theorem Tended.onDispatcher {fates : Fates} (h : Tended fates l.waiters l d)
    (f : Dispatcher → Dispatcher) (hphase : (f d).phase = .top) (hcalm : (f d).Calm fates) :
    Tended fates (l.onDispatcher f).waiters (l.onDispatcher f) (f d) := by
  obtain ⟨set, round, hbackend⟩ := h.backend_eq
  unfold Logger.onDispatcher
  rw [hbackend]
  exact ⟨⟨set, round, rfl⟩, hphase, hcalm, h.attended⟩

/-- Whatever the appenders make of it, a flush is answered well. -/
theorem serving_flush (hp : (Crew.handler ops).Prompt) (h : l.Serving d) (site : Site S) :
    (l.flush ops site).1 = .ok () ∧ ∃ d', (l.flush ops site).2.1.Serving d' := by
  obtain ⟨fates, ht⟩ := h.tended
  obtain ⟨set, round, hbackend⟩ := ht.backend_eq
  obtain ⟨d₁, h₁, hsame₁, hconsumed₁, -⟩ := serving_settle hp h site
  obtain ⟨⟨l₁, site₁⟩, ho₁⟩ : ∃ o, o = l.settle ops site := ⟨_, rfl⟩
  rw [← ho₁] at h₁
  dsimp only at h₁
  -- the ticket is taken
  obtain ⟨fates₁, ht₁⟩ := h₁.tended
  have hrequested : (l₁.onDispatcher fun _ => d₁.requestFlush.2).Serving d₁.requestFlush.2 := by
    refine ⟨⟨fates₁, ht₁.onDispatcher _ ht₁.phase_eq ?_⟩, h₁.stopRequested_eq, h₁.attached_eq, ?_⟩
    · exact { ht₁.calm with covered_le := Nat.le_succ_of_le ht₁.calm.covered_le }
    · obtain ⟨set₁, round₁, hbackend₁⟩ := ht₁.backend_eq
      unfold Logger.onDispatcher
      rw [hbackend₁]
      exact h₁.accepting_eq
  obtain ⟨d₂, h₂, hsame₂, -, hcompleted₂⟩ := serving_settle hp hrequested site₁
  have hflushed : d₂.isFlushed (d₁.requested + 1) = true := by
    unfold Dispatcher.isFlushed
    rw [hcompleted₂, hsame₂.requested_eq]
    exact decide_eq_true (Nat.le_refl _)
  have hcaught : ¬ d₁.ring.consumed < d.ring.claimed := by
    rw [hconsumed₁, hsame₁.claimed_eq]
    exact Nat.lt_irrefl _
  have hflush : l.flush ops site
      = (.ok (), (l₁.onDispatcher fun _ => d₁.requestFlush.2).settle ops site₁) := by
    unfold flush
    rw [hbackend]
    unfold flushAsync
    dsimp only
    rw [← ho₁]
    dsimp only
    rw [h₁.dispatcher_eq, Option.getD_some, if_neg hcaught, h₁.isRunning]
    simp only [Bool.not_true, Bool.false_eq_true, if_false]
    rw [h₂.dispatcher_eq, Option.getD_some]
    rw [show d₁.requestFlush.1 = d₁.requested + 1 from rfl, hflushed]
    rfl
  rw [hflush]
  exact ⟨rfl, d₂, h₂⟩

/-- A logger in use is still so after a call. -/
theorem serving_call (hp : (Crew.handler ops).Prompt) (h : l.Serving d) (c : LoggerCall)
    (site : Site S) : ∃ d', (l.call ops c site).1.Serving d' := by
  cases c with
  | publish v => exact serving_publish h v site
  | settle =>
      obtain ⟨d', h', -⟩ := serving_settle hp h site
      exact ⟨d', h'⟩
  | flush => exact (serving_flush hp h site).2

/-- And after any calls. -/
theorem serving_callAll (hp : (Crew.handler ops).Prompt) (calls : List LoggerCall)
    (h : l.Serving d) (site : Site S) : ∃ d', (l.callAll ops calls site).1.Serving d' := by
  induction calls generalizing l d site with
  | nil => exact ⟨d, h⟩
  | cons c rest ih =>
      obtain ⟨d₁, h₁⟩ := serving_call hp h c site
      exact ih h₁ _

/-- Whatever the appenders make of it, the first shutdown is answered well. -/
theorem serving_shutdown (hp : (Crew.handler ops).Prompt) (h : l.Serving d) (timeout : Nat)
    (site : Site S) : (l.shutdown ops timeout site).1 = true := by
  obtain ⟨fates, ht⟩ := h.tended
  obtain ⟨set, round, hbackend⟩ := ht.backend_eq
  obtain ⟨l₀, hl₀⟩ : ∃ l₀, l₀ = { l with accepting := false } := ⟨_, rfl⟩
  have ht₀ : Tended fates l₀.waiters l₀ d := by
    rw [hl₀]
    exact { ht with }
  have hasked := ht₀.onDispatcher Dispatcher.requestStop ht.phase_eq
    { ht.calm with stopRequested := fun _ => rfl }
  -- once asked, the dispatcher finishes when the logger settles
  obtain ⟨d', hstill, -⟩ := still_settle hp hasked site
  obtain ⟨hfinished, habandoned⟩ := hstill.gone rfl
  obtain ⟨set', round', hbackend'⟩ := hstill.backend_eq
  obtain ⟨⟨l', site'⟩, ho⟩ : ∃ o, o = (l₀.onDispatcher Dispatcher.requestStop).settle ops site :=
    ⟨_, rfl⟩
  rw [← ho] at hbackend'
  have hdispatcher : l'.dispatcher? = some d' := by
    unfold dispatcher?
    rw [show l'.backend = .async d' set' round' from hbackend']
  have hstop : (stopAsync ops timeout l₀ site).1 = true := by
    unfold stopAsync
    dsimp only
    rw [← ho]
    dsimp only
    rw [hdispatcher]
    simp only [Option.any_some, hfinished, if_true]
    rw [hdispatcher]
    dsimp only
    rw [Service.stopResult_of_finished timeout hfinished]
    unfold Dispatcher.isClean
    rw [habandoned]
    rfl
  -- it is still attached, so this is the shutdown that asks it
  have hshutdown : (l.shutdown ops timeout site).1 = (stopAsync ops timeout l₀ site).1 := by
    rw [hl₀]
    unfold shutdown
    rw [h.accepting_eq, hbackend]
    dsimp only
    rw [h.attached_eq]
    rfl
  exact hshutdown.trans hstop

-- ============================================================ the two

/-- What is asked of a logger before its shutdown may be anything. A
synchronous logger then answers well just if each of its appenders does
well; an asynchronous one answers well in any case. -/
theorem answers (ops : AppenderOps α S) (hfree : ∀ c a s, ops.isHeld c a s = false)
    (set : AppenderSet α) (timeout : Nat) (calls : List LoggerCall) (l : Logger α)
    (site : Site S) (haccepting : l.accepting = true) :
    let o := l.callAll ops calls site
    (∀ slot, l.backend = .sync (some (slot, set)) →
      ((o.1.flush ops o.2).1 = .ok () ↔ Errand.AllDone ops .flush set.members o.2.world)
        ∧ ((o.1.shutdown ops timeout o.2).1 = true
          ↔ Errand.AllDone ops .stop set.members o.2.world))
      ∧ ∀ size, l.waiters = [] → l.backend = .async (.onNewRing size) set none →
        (o.1.flush ops o.2).1 = .ok () ∧ (o.1.shutdown ops timeout o.2).1 = true := by
  intro o
  refine ⟨fun slot hbackend => ?_, fun size hwaiters hbackend => ?_⟩
  · obtain ⟨haccepting', slot', hbackend'⟩ :=
      callAll_sync ops calls site haccepting ⟨slot, hbackend⟩
    constructor
    · rw [← Errand.result_ok_iff (.inl rfl)]
      unfold flush
      rw [hbackend']
      exact Iff.rfl
    · rw [← Errand.result_ok_iff (.inr rfl)]
      unfold shutdown
      rw [haccepting', hbackend']
      show (Outcome.ofExcept (set.run ops .stop o.2.world).result).isDone = true ↔ _
      cases (set.run ops .stop o.2.world).result <;> simp [Outcome.ofExcept, Outcome.isDone]
  · have hprompt := Crew.prompt_handler hfree
    obtain ⟨d, hserving⟩ := serving_callAll hprompt calls
      (serving_start haccepting hwaiters hbackend) site
    exact ⟨(serving_flush hprompt hserving _).1, serving_shutdown hprompt hserving timeout _⟩

namespace Sample

/-- An appender that takes events and gets nothing out. -/
def stuck : AppenderOps Unit Unit := Samples.appender "stuck" fun c s =>
  (match c with
    | .append .. => .done
    | .flush | .stop => .failed (.writer "disk full"), s)

def site : Site Unit := Samples.site ()

def synchronous : Logger Unit := Samples.synchronous [] [()]

def asynchronous : Logger Unit := Samples.asynchronous [] [()]

/-- Three events on a ring for two: the last caller has to wait. -/
def calls : List LoggerCall :=
  [.publish (.ofText "a"), .publish (.ofText "b"), .publish (.ofText "c"), .flush]

end Sample

open LogPipeline.Logger.Sample in
theorem answers_sample :
    let sync := synchronous.callAll stuck calls site
    let async := asynchronous.callAll stuck calls site
    ((sync.1.flush stuck sync.2).1 = .ok () ↔ Errand.AllDone stuck .flush [()] sync.2.world)
      ∧ ((sync.1.shutdown stuck 0 sync.2).1 = true
        ↔ Errand.AllDone stuck .stop [()] sync.2.world)
      ∧ (async.1.flush stuck async.2).1 = .ok ()
      ∧ (async.1.shutdown stuck 0 async.2).1 = true := by
  intro sync async
  have hsync := (answers stuck (fun _ _ _ => rfl) ⟨[()]⟩ 0 calls synchronous site rfl).1
  have hasync := (answers stuck (fun _ _ _ => rfl) ⟨[()]⟩ 0 calls asynchronous site rfl).2
  exact ⟨(hsync .fresh rfl).1, (hsync .fresh rfl).2, hasync 2 rfl rfl⟩

open LogPipeline.Logger.Sample in
/-- The appender gets nothing out, and only the synchronous logger says so. -/
theorem failure_untold :
    (synchronous.flush stuck site).1 = .error (.writer "disk full")
      ∧ (synchronous.shutdown stuck 0 site).1 = false
      ∧ (asynchronous.flush stuck site).1 = .ok ()
      ∧ (asynchronous.shutdown stuck 0 site).1 = true
      ∧ ¬ Errand.AllDone stuck .flush [()] ()
      ∧ ¬ Errand.AllDone stuck .stop [()] () := by
  refine ⟨rfl, by decide +kernel, ?_, by decide +kernel, fun h => ?_, fun h => ?_⟩
  · have hok : (asynchronous.flush stuck site).1.isOk = true := by decide +kernel
    cases hr : (asynchronous.flush stuck site).1 with
    | ok u => rfl
    | error e =>
        rw [hr] at hok
        cases hok
  · cases h (.failed (.writer "disk full")) List.mem_cons_self
  · cases h (.failed (.writer "disk full")) List.mem_cons_self

end Logger

end LogPipeline
