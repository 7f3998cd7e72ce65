/-
How events are cut into batches is not seen in what is written. A batch
is what a dispatcher finds published when it looks, so it is an accident
of timing; a synchronous logger makes every event a batch of its own. The
end of a batch decides when buffers are pushed, and nothing else: the
sinks have the same bytes in the end, and every delivery the same result.

# From streams to loggers

`AppenderSet.serveOut_alike` says so of a set that answers two sequences
of calls with the same events. Here a synchronous logger is such a
sequence, with every event flagged (`Logger.publishOut_sync`), and so is
a dispatcher that has finished and left nothing behind, with the flags
that timing gave it and flushes wherever they were asked for
(`Crew.world_finished`). An asynchronous logger that was shut down clean
has had such a dispatcher (`Logger.callOut_async`).

The sinks are overseen, so that what each was handed can be told;
`Registry.mirrors_overseen` says that this changes nothing.
-/
import LogPipeline.Proofs.Appender.Batching
import LogPipeline.Proofs.Logger.Asynchronous
import LogPipeline.Proofs.Samples

namespace LogPipeline

-- ===================================================== synchronous loggers

namespace Logger

variable {α S : Type}

/-- Publish events, one after another. -/
def publishAll (ops : AppenderOps α S) :
    List EventValues → Logger α → Site S → Logger α × Site S
  | [], l, site => (l, site)
  | v :: rest, l, site =>
      let (l, site) := l.publish ops v site
      publishAll ops rest l site

/-- Publish events, one after another, and shut down. -/
def publishOut (ops : AppenderOps α S) (timeout : Nat) (vs : List EventValues) (l : Logger α)
    (site : Site S) : Bool × Logger α × Site S :=
  let (l, site) := l.publishAll ops vs site
  l.shutdown ops timeout site

/-- The delivery that a synchronous logger makes of an event: every event is
a batch of its own. -/
def syncCall (v : EventValues) : SetCall :=
  .deliver { EventSlot.ofValues v with endOfBatch := true } true

theorem events_syncCalls (vs : List EventValues) :
    SetCall.events (vs.map syncCall) = vs.map EventSlot.ofValues := by
  unfold SetCall.events
  rw [List.filterMap_map, ← List.filterMap_eq_map]
  rfl

/-- A synchronous logger does what its set does. -/
theorem publishAll_sync (ops : AppenderOps α S) {set : AppenderSet α} {slot : EventSlot}
    (vs : List EventValues) {l : Logger α} (site : Site S) (haccepting : l.accepting = true)
    (hbackend : l.backend = .sync (some (slot, set))) :
    (l.publishAll ops vs site).1.accepting = true
      ∧ (∃ slot', (l.publishAll ops vs site).1.backend = .sync (some (slot', set)))
      ∧ (l.publishAll ops vs site).2.world
        = (set.serve ops (vs.map syncCall) site.world).state := by
  induction vs generalizing l slot site with
  | nil => exact ⟨haccepting, ⟨slot, hbackend⟩, rfl⟩
  | cons v rest ih =>
      have hpublish : l.publish ops v site = l.publishSync ops v slot set site := by
        unfold publish
        rw [haccepting, hbackend]
        rfl
      obtain ⟨l₁, hl₁⟩ : ∃ l₁, l₁ = (l.publishSync ops v slot set site).1 := ⟨_, rfl⟩
      obtain ⟨site₁, hsite₁⟩ : ∃ site₁, site₁ = (l.publishSync ops v slot set site).2 :=
        ⟨_, rfl⟩
      have haccepting₁ : l₁.accepting = true := by
        rw [hl₁]
        exact haccepting
      have hbackend₁ : ∃ slot₁, l₁.backend = .sync (some (slot₁, set)) := by
        rw [hl₁]
        exact ⟨_, rfl⟩
      have hworld₁ : site₁.world = (set.run ops (syncCall v).errand site.world).state := by
        rw [hsite₁]
        unfold publishSync
        rw [EventSlot.setValues_eq]
        rfl
      obtain ⟨slot₁, hbackend₁⟩ := hbackend₁
      obtain ⟨ha, hb, hw⟩ := ih site₁ haccepting₁ hbackend₁
      have hall : l.publishAll ops (v :: rest) site = l₁.publishAll ops rest site₁ := by
        rw [publishAll, hpublish, hl₁, hsite₁]
      rw [hall]
      refine ⟨ha, hb, hw.trans ?_⟩
      rw [List.map_cons, AppenderSet.serve_cons, hworld₁]

/-- So it does to the end. -/
theorem publishOut_sync (ops : AppenderOps α S) (timeout : Nat) {set : AppenderSet α}
    {slot : EventSlot} (vs : List EventValues) {l : Logger α} (site : Site S)
    (haccepting : l.accepting = true) (hbackend : l.backend = .sync (some (slot, set))) :
    (l.publishOut ops timeout vs site).2.2.world
      = (set.serveOut ops (vs.map syncCall) site.world).state := by
  obtain ⟨ha, ⟨slot', hb⟩, hw⟩ := publishAll_sync ops vs site haccepting hbackend
  unfold publishOut shutdown
  dsimp only
  rw [ha]
  simp only [Bool.not_true, Bool.false_eq_true, if_false]
  rw [hb]
  show (set.run ops .stop _).state = _
  rw [hw]
  rfl

end Logger

-- ==================================================== asynchronous loggers

namespace Crew

variable {α S : Type} {ops : AppenderOps α S}

/-- A dispatcher that has finished and left nothing behind has done with the
set what its calls alone do. -/
theorem world_finished (hfree : ∀ c a s, ops.isHeld c a s = false) (size : Nat)
    (metrics : Metrics) (status : StatusLog) (set : AppenderSet α) (s : S)
    (steps : List ServiceOp) :
    let sv := (Service.start size ⟨metrics, status, ⟨set, none, s⟩⟩).run (handler ops) steps
    sv.dispatcher.isFinished = true → sv.dispatcher.abandoned = 0 →
      ∃ calls, SetCall.events calls = sv.fates.published.map EventSlot.ofValues
        ∧ sv.shared.handler.world = (set.serveOut ops calls s).state := by
  intro sv hfinished hclean
  obtain ⟨s₀, hs₀⟩ : ∃ s₀ : Shared (Crew α S), s₀ = ⟨metrics, status, ⟨set, none, s⟩⟩ :=
    ⟨_, rfl⟩
  -- what the handler was asked is on record, and that changes nothing
  have hplain := Service.plain_run (handler ops) steps (Service.start size s₀.noted)
  have hsv : ((Service.start size s₀.noted).run (handler ops).noted steps).plain = sv := by
    rw [hplain, hs₀]
    rfl
  have hfinished' : ((Service.start size s₀.noted).run (handler ops).noted
      steps).dispatcher.isFinished = true := by
    rw [← hsv] at hfinished
    exact hfinished
  have hclean' : ((Service.start size s₀.noted).run (handler ops).noted
      steps).dispatcher.abandoned = 0 := by
    rw [← hsv] at hclean
    exact hclean
  obtain ⟨before, hbefore, hshown, hstate⟩ :=
    Service.replayed (prompt_handler hfree) size s₀ steps hfinished' hclean'
  refine ⟨(before.map (·.task)).filterMap Task.setCall?, ?_, ?_⟩
  · rw [events_setCalls, hshown, ← hsv]
    rfl
  -- before the stop there is no other stop, so the tasks are calls of a set
  · have htasks : ∀ task ∈ before.map (·.task), task.isShutdown = false := by
      intro task ht
      obtain ⟨c, hc, rfl⟩ := List.mem_map.1 ht
      exact hbefore c hc
    rw [← replay_serveOut hfree htasks, ← hsv]
    have hhandler : s₀.handler = ⟨set, none, s⟩ := by rw [hs₀]
    rw [← hhandler]
    exact congrArg Crew.world hstate

end Crew

-- ============================================================== theorem

section

variable {W : Type}

/-- What the sink of an outlet was handed since it is overseen. -/
def Registry.handed (r : Registry (Overseen W)) (i : Nat) : Option ByteArray :=
  r.takenAt (fun j w => w.attempts j) i

/-- Take any managed outputs that do not look at the ends of batches, on
managers whose sinks never fail. If a set of them is asked to deliver the
same events, in whatever batches and with flushes anywhere in between, and
is then stopped, every delivery gives the same result and every sink has
been handed the same bytes. A synchronous logger that publishes these
events hands out the same bytes once more. So does a dispatcher that they
were published to, whatever the order of steps, once it has finished and
left nothing behind; and so does an asynchronous logger whose shutdown was
clean, for those of its events that were published. -/
theorem batching_unseen (set : AppenderSet ManagedOutput) (r : Registry W)
    (hsinks : ∀ o ∈ r.outlets, o.sink.Steady) (hset : ∀ o ∈ set.members, o.Blind) :
    (∀ as bs : List SetCall, SetCall.events as = SetCall.events bs →
        (set.serveOut ManagedOutput.ops as r).results
            = (set.serveOut ManagedOutput.ops bs r).results
          ∧ ∀ i, (set.serveOut ManagedOutput.ops as r.overseen).state.handed i
            = (set.serveOut ManagedOutput.ops bs r.overseen).state.handed i)
      ∧ ∀ (status : StatusLog) (timeout size : Nat) (sync : Logger ManagedOutput)
          (slot : EventSlot), sync.accepting = true → sync.backend = .sync (some (slot, set)) →
        let bytesOf := fun (vs : List EventValues) (i : Nat) =>
          (sync.publishOut ManagedOutput.ops timeout vs ⟨status, r.overseen⟩).2.2.world.handed i
        (∀ (metrics : Metrics) (steps : List ServiceOp),
          let sv := (Service.start size ⟨metrics, status, ⟨set, none, r.overseen⟩⟩).run
            (Crew.handler ManagedOutput.ops) steps
          sv.dispatcher.isFinished = true → sv.dispatcher.abandoned = 0 →
            ∀ i, sv.shared.handler.world.handed i = bytesOf sv.fates.published i)
        ∧ ∀ (calls : List LoggerCall) (async : Logger ManagedOutput),
          async.accepting = true → async.waiters = [] →
            async.backend = .async (.onNewRing size) set none →
          let out := async.callOut ManagedOutput.ops timeout calls ⟨status, r.overseen⟩
          out.1 = true → ∃ vs : List EventValues, vs.Sublist (LoggerCall.values calls)
            ∧ out.2.1.metrics.published = async.metrics.published + vs.length
            ∧ ∀ i, out.2.2.world.handed i = bytesOf vs i := by
  have hfiled := Registry.filed_overseen hsinks
  refine ⟨fun as bs h => ⟨?_, ?_⟩, ?_⟩
  · have hagree := ManagedOutput.agree_mirrors (W := W) Overseen.world
    obtain ⟨has, -, -⟩ := hagree.serveOut set as r.mirrors_overseen
    obtain ⟨hbs, -, -⟩ := hagree.serveOut set bs r.mirrors_overseen
    rw [← has, ← hbs]
    exact (AppenderSet.serveOut_alike hfiled hset h).1
  · exact (AppenderSet.serveOut_alike hfiled hset h).2.2
  intro status timeout size sync slot haccepting hbackend bytesOf
  -- a dispatcher leaves what a set leaves that serves the published events
  have hservice : ∀ (metrics : Metrics) (steps : List ServiceOp),
      let sv := (Service.start size ⟨metrics, status, ⟨set, none, r.overseen⟩⟩).run
        (Crew.handler ManagedOutput.ops) steps
      sv.dispatcher.isFinished = true → sv.dispatcher.abandoned = 0 →
        ∀ i, sv.shared.handler.world.handed i = bytesOf sv.fates.published i := by
    intro metrics steps sv hfinished hclean i
    obtain ⟨calls, hevents, hworld⟩ := Crew.world_finished (fun _ _ _ => rfl) size metrics
      status set r.overseen steps hfinished hclean
    show _ = (sync.publishOut ManagedOutput.ops timeout _ _).2.2.world.handed i
    rw [hworld, Logger.publishOut_sync _ timeout _ _ haccepting hbackend]
    refine (AppenderSet.serveOut_alike hfiled hset ?_).2.2 i
    rw [hevents, Logger.events_syncCalls]
  refine ⟨hservice, ?_⟩
  intro calls async haccepting' hwaiters hbackend' out hclean
  -- an asynchronous logger that stops cleanly has run such a dispatcher
  obtain ⟨steps, hfinished, habandoned, hworld, hsub, hcount⟩ :=
    Logger.callOut_async ManagedOutput.ops timeout calls ⟨status, r.overseen⟩ haccepting'
      hwaiters hbackend' hclean
  refine ⟨_, hsub, hcount, fun i => ?_⟩
  show (async.callOut ManagedOutput.ops timeout calls _).2.2.world.handed i = _
  rw [hworld]
  exact hservice async.metrics steps hfinished habandoned i

end

namespace Batched

open Samples (plainly tersely)

/-- One manager with room for three bytes, before a sink that takes everything. -/
def registry : Registry Unit := ⟨#[⟨.new "m" 3 false, Samples.sink (.ok ()) id⟩], .empty, ()⟩

/-- Two outputs on one manager, of which one has a filter and the other fails
on long messages. -/
def outputs : AppenderSet ManagedOutput :=
  ⟨[⟨"plain", ⟨0⟩, plainly, some [.builtin (.threshold .debug ⟨.neutral, .deny⟩)]⟩,
    ⟨"terse", ⟨0⟩, tersely, none⟩]⟩

/-- Neither the filter nor the formatters look at the ends of batches. -/
theorem blind_outputs : ∀ o ∈ outputs.members, o.Blind := by
  intro o ho
  apply ManagedOutput.blind_of_custom
  · intro g hg e endOfBatch
    rcases List.mem_cons.1 ho with rfl | ho
    · cases hg
      rfl
    · rw [List.mem_singleton.1 ho] at hg
      cases hg
      rfl
  · intro chain hchain
    rcases List.mem_cons.1 ho with rfl | ho
    · cases hchain
      exact ⟨trivial, trivial⟩
    · rw [List.mem_singleton.1 ho] at hchain
      cases hchain

/-- Two events are published, the second one first, and the dispatcher is
asked to stop. -/
def steps : List ServiceOp :=
  [.produce .claim, .produce .claim, .produce (.publish 1 (.ofText "long")),
    .produce (.publish 0 (.ofText "ab")), .requestStop] ++ List.replicate 13 .step

def synchronous : Logger ManagedOutput := Samples.synchronous [] outputs.members

def asynchronous : Logger ManagedOutput := Samples.asynchronous [] outputs.members

/-- Three events on a ring for two: the last caller has to wait. -/
def calls : List LoggerCall :=
  [.publish (.ofText "ab"), .publish (.ofText "long"), .publish (.ofText "c"), .settle]

end Batched

open Batched in
theorem batching_unseen_sample :
    let one : List SetCall :=
      [.deliver (.ofText "ab") false, .deliver (.ofText "long") true]
    let two : List SetCall :=
      [.deliver (.ofText "ab") true, .flush, .deliver (.ofText "long") false]
    let bytesOf := fun (vs : List EventValues) (i : Nat) =>
      (synchronous.publishOut ManagedOutput.ops 0 vs
        ⟨default, registry.overseen⟩).2.2.world.handed i
    let sv := (Service.start 2 ⟨.zero, default, ⟨outputs, none, registry.overseen⟩⟩).run
      (Crew.handler ManagedOutput.ops) steps
    let out := asynchronous.callOut ManagedOutput.ops 0 calls ⟨default, registry.overseen⟩
    (outputs.serveOut ManagedOutput.ops one registry).results
        = (outputs.serveOut ManagedOutput.ops two registry).results
      ∧ (outputs.serveOut ManagedOutput.ops one registry.overseen).state.handed 0
        = (outputs.serveOut ManagedOutput.ops two registry.overseen).state.handed 0
      ∧ sv.shared.handler.world.handed 0 = bytesOf sv.fates.published 0
      ∧ out.2.2.world.handed 0 = bytesOf (LoggerCall.values calls) 0 := by
  have hsinks : ∀ o ∈ registry.outlets, o.sink.Steady := by
    intro o ho
    rw [List.mem_singleton.1 (Array.mem_toList_iff.2 ho)]
    exact ⟨fun _ _ => rfl, fun _ => rfl, fun _ => rfl⟩
  have h := batching_unseen outputs registry hsinks blind_outputs
  intro one two bytesOf sv
  obtain ⟨hresults, hhanded⟩ := h.1 one two rfl
  obtain ⟨hservice, hlogger⟩ := h.2 default 0 2 synchronous .fresh rfl rfl
  have hclean : (asynchronous.callOut ManagedOutput.ops 0 calls
      ⟨default, registry.overseen⟩).1 = true := by
    decide +kernel
  have hpublished : (asynchronous.callOut ManagedOutput.ops 0 calls
      ⟨default, registry.overseen⟩).2.1.metrics.published = 3 := by
    decide +kernel
  obtain ⟨vs, hsub, hcount, hbytes⟩ := hlogger calls asynchronous rfl rfl rfl hclean
  -- all three were published, so nothing of what was given is missing
  have hnew : asynchronous.metrics.published = 0 := rfl
  have hlength : vs.length = 3 := by
    have htotal := hcount.symm.trans hpublished
    rwa [hnew, Nat.zero_add] at htotal
  have hall : vs = LoggerCall.values calls := hsub.eq_of_length hlength
  have hservice' := hservice .zero steps (by decide +kernel) (by decide +kernel) 0
  exact ⟨hresults, hhanded 0, hservice', hall ▸ hbytes 0⟩

end LogPipeline
