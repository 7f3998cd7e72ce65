/-
The dispatcher's accounts: whatever the order of steps of the dispatcher
and of producers, and however the calls of the handler end, the handler
is shown what was published, once each and in order, and the counters and
the status log tell exactly what became of it.

# Runs

A `Service` is a dispatcher with the record of its ring's sequences. Its
operations are those of producers, as in `Scene`, those of whoever holds
the dispatcher (flush, stop, a deadline that passes), and the steps of the
dispatcher itself; they come in any order. A producer that found the ring
open may take its sequence long after the ring was closed; if the
dispatcher has left by then, the sequence is counted as `late`.

# The invariant

`Service.Inv` ties the handler's calls to the record (`given`) and to the
books (`booked`), and says for each phase which calls there are
(`Phase.Shape`). Where the dispatcher works, nothing is left behind;
where it has gone, every sequence is accounted for (`gone`).

A step begins a call or goes on with one. Both are the same from the
second half on, so a fresh call is first entered as one that is held up
(`inv_lend`, `inv_begin`), and `inv_afterEvent`, `inv_afterFlush`,
`inv_afterStop` take it from there.
-/
import LogPipeline.Proofs.Dispatcher.Calls
import LogPipeline.Proofs.Dispatcher.Steps
import LogPipeline.Proofs.Ring.Consumer
import LogPipeline.Proofs.Ring.Traffic

namespace LogPipeline

-- ============================================================== phases

namespace Phase

def isHandling : Phase → Bool
  | handling => true
  | _ => false

/-- The dispatcher takes no more events. -/
def isGone : Phase → Bool
  | leaving | stopping | heldInStop | finished => true
  | _ => false

/-- The handler is held up in a call. -/
def isHeld : Phase → Bool
  | handling | heldInFlush .. | heldInStop => true
  | _ => false

end Phase

/-- Every call is over, and none shut the handler down. -/
def AllOver (calls : List HandlerCall) : Prop :=
  NoShutdown calls ∧ ∀ c ∈ calls, c.hasEnded = true

/-- The calls there are in a phase. Only the last one may be held up, and
only the last one of all shuts the handler down. -/
def Phase.Shape (p : Phase) (calls : List HandlerCall) : Prop :=
  match p with
  | .handling => ∃ init slot endOfBatch soFar, AllOver init
      ∧ calls = init ++ [⟨.event slot endOfBatch, soFar, none⟩]
  | .heldInFlush .. => ∃ init soFar, AllOver init ∧ calls = init ++ [⟨.flush, soFar, none⟩]
  | .heldInStop => ∃ init soFar, AllOver init ∧ calls = init ++ [⟨.shutdown, soFar, none⟩]
  | .finished => ∃ init soFar o, AllOver init
      ∧ calls = init ++ [⟨.shutdown, soFar, some o⟩]
  | _ => AllOver calls

theorem allOver_concat {init : List HandlerCall} (h : AllOver init) {task : Task}
    (ht : task.isShutdown = false) (soFar : List StatusEntry) (o : Outcome) :
    AllOver (init ++ [⟨task, soFar, some o⟩]) := by
  refine ⟨fun c hc => ?_, fun c hc => ?_⟩
  · rcases List.mem_append.1 hc with hc | hc
    · exact h.1 c hc
    · rw [List.mem_singleton.1 hc]
      exact ht
  · rcases List.mem_append.1 hc with hc | hc
    · exact h.2 c hc
    · rw [List.mem_singleton.1 hc]
      rfl

/-- The events that the handler was shown, the ends of batches apart. -/
def shownEvents (calls : List HandlerCall) : List EventSlot :=
  calls.filterMap fun c => c.task.slot?.map fun slot => { slot with endOfBatch := false }

theorem shownEvents_concat (init : List HandlerCall) (c : HandlerCall) :
    shownEvents (init ++ [c]) = shownEvents init
      ++ (c.task.slot?.map fun slot => { slot with endOfBatch := false }).toList := by
  unfold shownEvents
  rw [List.filterMap_append]
  cases h : c.task.slot? <;> simp [h]

/-- The slot of an event says whether it ends a batch as the call does. -/
def Told (calls : List HandlerCall) : Prop :=
  ∀ c ∈ calls, ∀ (slot : EventSlot) (endOfBatch : Bool),
    c.task = .event slot endOfBatch → slot.endOfBatch = endOfBatch

theorem told_concat {init : List HandlerCall} {c : HandlerCall} (h : Told init)
    (hc : ∀ (slot : EventSlot) (endOfBatch : Bool), c.task = .event slot endOfBatch →
      slot.endOfBatch = endOfBatch) : Told (init ++ [c]) := by
  intro c' hc'
  rcases List.mem_append.1 hc' with hc' | hc'
  · exact h c' hc'
  · rw [List.mem_singleton.1 hc']
    exact hc

theorem told_of_concat {init : List HandlerCall} {c c' : HandlerCall} (h : Told (init ++ [c]))
    (hc : c'.task = c.task) : Told (init ++ [c']) :=
  told_concat (fun c₁ h₁ => h c₁ (List.mem_append_left _ h₁))
    (hc ▸ h c (List.mem_append_right _ (List.mem_singleton_self c)))

-- ============================================================ services

/-- What happens at a dispatcher and its ring. -/
inductive ServiceOp where
  | produce (op : ProducerOp)
  /-- A producer finds the ring open and sets about to take a sequence. -/
  | arrive
  /-- Such a producer takes the next sequence. -/
  | draw
  | requestFlush
  | requestStop
  | expire
  | step

/-- A dispatcher at work, with the record of its ring's sequences. -/
structure Service (H : Type) where
  dispatcher : Dispatcher
  fates : Fates
  shared : Shared H
  /-- Producers that found the ring open and have not taken a sequence yet. -/
  arrived : Nat
  /-- Sequences taken when the dispatcher had left already. -/
  late : Nat

namespace Service

variable {H : Type}

def start (size : Nat) (s : Shared H) : Service H := ⟨.onNewRing size, [], s, 0, 0⟩

def ring (sv : Service H) : Ring := sv.dispatcher.ring

def phase (sv : Service H) : Phase := sv.dispatcher.phase

def traffic (sv : Service H) : Traffic := ⟨sv.ring, sv.fates⟩

def withTraffic (t : Traffic) (sv : Service H) : Service H :=
  { sv with dispatcher := { sv.dispatcher with ring := t.ring }, fates := t.fates }

def step (h : Handler H) (sv : Service H) : ServiceOp → Service H
  | .produce op => sv.withTraffic (sv.traffic.produce op)
  | .arrive => if sv.ring.closed then sv else { sv with arrived := sv.arrived + 1 }
  | .draw =>
      if sv.arrived = 0 then sv
      else { sv.withTraffic ⟨{ sv.ring with claimed := sv.ring.claimed + 1 },
          sv.fates ++ [.reserved]⟩ with
        arrived := sv.arrived - 1
        late := sv.late + if sv.phase.isGone then 1 else 0 }
  | .requestFlush => { sv with dispatcher := sv.dispatcher.requestFlush.2 }
  | .requestStop => { sv with dispatcher := sv.dispatcher.requestStop }
  | .expire => { sv with dispatcher := sv.dispatcher.expire }
  | .step =>
      match sv.dispatcher.step h sv.shared with
      | none => sv
      | some (d, s) => { sv with dispatcher := d, shared := s }

/-- A run: operations, one after another. -/
def run (h : Handler H) (ops : List ServiceOp) (sv : Service H) : Service H :=
  ops.foldl (step h) sv

/-- The calls on the handler so far. -/
def calls (sv : Service (Noted H)) : List HandlerCall := sv.shared.handler.calls

/-- The same service without the notes. -/
def plain (sv : Service (Noted H)) : Service H :=
  ⟨sv.dispatcher, sv.fates, sv.shared.plain, sv.arrived, sv.late⟩

theorem plain_step (h : Handler H) (sv : Service (Noted H)) (op : ServiceOp) :
    (sv.step h.noted op).plain = sv.plain.step h op := by
  cases op with
  | arrive =>
      show plain (if sv.ring.closed then sv else _) = if sv.ring.closed then _ else _
      split <;> rfl
  | draw =>
      show plain (if sv.arrived = 0 then sv else _) = if sv.arrived = 0 then _ else _
      split <;> rfl
  | step =>
      have := Dispatcher.step_noted h sv.dispatcher sv.shared
      simp only [step]
      rw [show Dispatcher.step h sv.plain.dispatcher sv.plain.shared = _ from this.symm]
      cases sv.dispatcher.step h.noted sv.shared <;> rfl
  | _ => rfl

/-- Taking notes changes nothing about a run. -/
theorem plain_run (h : Handler H) (ops : List ServiceOp) (sv : Service (Noted H)) :
    (sv.run h.noted ops).plain = sv.plain.run h ops := by
  induction ops generalizing sv with
  | nil => rfl
  | cons op rest ih =>
      show ((sv.step h.noted op).run h.noted rest).plain = _
      rw [ih, plain_step]
      rfl

-- ====================================================== the invariant

/-- The accounts of a service that began with the metrics `m₀` and the
status log `l₀`. -/
structure Inv (m₀ : Metrics) (l₀ : StatusLog) (sv : Service (Noted H)) : Prop where
  tracks : sv.ring.Tracks sv.fates
  lent_eq : sv.ring.lent = sv.phase.isHandling
  given : shownEvents sv.calls = (sv.fates.eventsBelow sv.ring.frontier).map Prod.snd
  told : Told sv.calls
  booked : Booked m₀ l₀ sv.dispatcher.abandoned sv.calls sv.shared
  shape : sv.phase.Shape sv.calls
  closed : sv.dispatcher.closed = true → sv.ring.closed = true
  /-- While the dispatcher works, nothing is left behind. -/
  busy : sv.phase.isGone = false → sv.dispatcher.abandoned = 0 ∧ sv.late = 0
  /-- Once it has gone, every sequence is accounted for. -/
  gone : sv.phase.isGone = true → sv.ring.closed = true
    ∧ sv.ring.claimed = sv.ring.consumed + sv.dispatcher.abandoned + sv.late
  /-- No event comes under a sequence that was taken late. -/
  mute : sv.phase.isGone = true →
    ∀ s, sv.ring.consumed + sv.dispatcher.abandoned ≤ s → sv.traffic.MuteAt s

variable {m₀ : Metrics} {l₀ : StatusLog} {sv : Service (Noted H)}

theorem inv_start (size : Nat) (s : Shared H) :
    Inv s.metrics s.status (start size s.noted) where
  tracks := by
    have ht := Ring.tracks_ofSize size
    exact ht.take rfl
  lent_eq := rfl
  given := rfl
  told := fun c hc => by cases hc
  booked := ⟨rfl, rfl⟩
  shape := ⟨fun c hc => (by cases hc), fun c hc => by cases hc⟩
  closed := fun hc => by cases hc
  busy := fun _ => ⟨rfl, rfl⟩
  gone := fun hg => by cases hg
  mute := fun hg => by cases hg

-- =========================================================== producers

/-- Producers do not touch the accounts. -/
theorem inv_of_kept {t : Traffic} (h : sv.Inv m₀ l₀) (hk : Traffic.Kept sv.traffic t)
    (hm : sv.ring.closed = true → ∀ s, sv.traffic.MuteAt s → t.MuteAt s) :
    Inv m₀ l₀ (sv.withTraffic t) where
  tracks := hk.tracks
  lent_eq := hk.lent_eq.trans h.lent_eq
  given := by
    have hfrontier : t.ring.frontier = sv.ring.frontier :=
      Ring.frontier_congr hk.consumed_eq hk.lent_eq
    have hbelow : t.fates.eventsBelow sv.ring.frontier
        = sv.fates.eventsBelow sv.ring.frontier :=
      hk.eventsBelow_eq fun s hs => h.tracks.resolved_of_lt_frontier hs
    show _ = (t.fates.eventsBelow t.ring.frontier).map Prod.snd
    rw [hfrontier, hbelow]
    exact h.given
  told := h.told
  booked := h.booked
  shape := h.shape
  closed := fun hc => hk.closed_eq.trans (h.closed hc)
  busy := h.busy
  gone := by
    intro hg
    obtain ⟨hc, heq⟩ := h.gone hg
    refine ⟨hk.closed_eq.trans hc, ?_⟩
    show t.ring.claimed = t.ring.consumed + _ + _
    rw [hk.claimed_eq hc, hk.consumed_eq]
    exact heq
  mute := by
    intro hg s hs
    have hs' : sv.ring.consumed + sv.dispatcher.abandoned ≤ s := by
      rw [← show t.ring.consumed = sv.ring.consumed from hk.consumed_eq]
      exact hs
    exact hm (h.gone hg).1 s (h.mute hg s hs')

/-- A sequence is taken by a producer that found the ring open before. If
the dispatcher has gone, it is late. -/
theorem inv_draw {h' : Handler (Noted H)} (h : sv.Inv m₀ l₀) : (sv.step h' .draw).Inv m₀ l₀ := by
  simp only [step]
  split
  · exact h
  · exact {
      tracks := h.tracks.draw rfl fun hc => by cases hc
      lent_eq := h.lent_eq
      given := by
        -- the new sequence is beyond what was handed out
        have hbelow : Fates.eventsBelow (sv.fates ++ [.reserved]) sv.ring.frontier
            = sv.fates.eventsBelow sv.ring.frontier :=
          Fates.eventsBelow_congr fun s hs => List.getElem?_append_left
            (Fates.lt_of_resolvedAt (h.tracks.resolved_of_lt_frontier hs))
        exact h.given.trans (congrArg (List.map Prod.snd) hbelow).symm
      told := h.told
      booked := h.booked
      shape := h.shape
      closed := h.closed
      busy := by
        intro hg
        have hg' : sv.phase.isGone = false := hg
        refine ⟨(h.busy hg').1, ?_⟩
        show sv.late + (if sv.phase.isGone then 1 else 0) = 0
        rw [hg', (h.busy hg').2]
        rfl
      gone := by
        intro hg
        have hg' : sv.phase.isGone = true := hg
        refine ⟨(h.gone hg').1, ?_⟩
        -- one that is drawn after the dispatcher has gone is late
        show sv.ring.claimed + 1 = sv.ring.consumed + sv.dispatcher.abandoned
          + (sv.late + if sv.phase.isGone then 1 else 0)
        rw [(h.gone hg').2, hg', if_pos rfl]
        omega
      mute := by
        intro hg s hs f hf
        have hf' : (sv.fates ++ [.reserved])[s]? = some f := hf
        rcases Nat.lt_or_ge s sv.fates.length with hlt | hge
        · rw [List.getElem?_append_left hlt] at hf'
          exact h.mute hg s hs f hf'
        · rw [List.getElem?_append_right hge] at hf'
          have hmem := List.mem_of_getElem? hf'
          rw [List.mem_singleton.1 hmem]
          rfl }

-- ====================================================== turns of phase

/-- What the accounts say of the phase the dispatcher is in. -/
theorem Inv.inPhase {p : Phase} (h : sv.Inv m₀ l₀) (hp : sv.dispatcher.phase = p) :
    sv.ring.lent = p.isHandling ∧ p.Shape sv.calls
      ∧ (p.isGone = false → sv.dispatcher.abandoned = 0 ∧ sv.late = 0) := by
  subst hp
  exact ⟨h.lent_eq, h.shape, h.busy⟩

/-- The dispatcher turns to another phase and leaves everything alone. -/
theorem inv_turn {p : Phase} {d : Dispatcher} (h : sv.Inv m₀ l₀)
    (hp : sv.dispatcher.phase = p) (hring : d.ring = sv.ring)
    (habandoned : d.abandoned = sv.dispatcher.abandoned)
    (hclosed : d.closed = sv.dispatcher.closed)
    (hhandling : d.phase.isHandling = p.isHandling) (hgone : d.phase.isGone = p.isGone)
    (hshape : p.Shape sv.calls → d.phase.Shape sv.calls) :
    Inv m₀ l₀ { sv with dispatcher := d } where
  tracks := (show d.ring.Tracks sv.fates from hring ▸ h.tracks)
  lent_eq := (show d.ring.lent = d.phase.isHandling by
    rw [hring, hhandling]
    exact (h.inPhase hp).1)
  given := (show _ = (sv.fates.eventsBelow d.ring.frontier).map Prod.snd from hring ▸ h.given)
  told := h.told
  booked := (show Booked m₀ l₀ d.abandoned sv.calls sv.shared from habandoned ▸ h.booked)
  shape := hshape (h.inPhase hp).2.1
  closed := (show d.closed = true → d.ring.closed = true by
    rw [hring, hclosed]
    exact h.closed)
  busy := (show d.phase.isGone = false → d.abandoned = 0 ∧ sv.late = 0 by
    rw [hgone, habandoned, ← hp]
    exact h.busy)
  gone := (show d.phase.isGone = true → d.ring.closed = true
      ∧ d.ring.claimed = d.ring.consumed + d.abandoned + sv.late by
    rw [hgone, habandoned, hring, ← hp]
    exact h.gone)
  mute := (show d.phase.isGone = true → ∀ s, d.ring.consumed + d.abandoned ≤ s →
      Traffic.MuteAt ⟨d.ring, sv.fates⟩ s by
    rw [hgone, habandoned, hring, ← hp]
    exact h.mute)

-- ======================================================= calls begin

/-- The notes so far are these. -/
def withCalls (calls : List HandlerCall) (s : Shared (Noted H)) : Shared (Noted H) :=
  { s with handler := { s.handler with calls := calls } }

/-- A call that is not about an event begins. -/
theorem inv_begin {p : Phase} {task : Task} (h : sv.Inv m₀ l₀) (hover : AllOver sv.calls)
    (htask : task.slot? = none) (hhandling : p.isHandling = sv.phase.isHandling)
    (hgone : p.isGone = sv.phase.isGone)
    (hlate : task.isShutdown = false → sv.dispatcher.abandoned = 0)
    (hshape : p.Shape (sv.calls ++ [⟨task, [], none⟩])) :
    Inv m₀ l₀ { sv with
      dispatcher := { sv.dispatcher with phase := p }
      shared := withCalls (sv.calls ++ [⟨task, [], none⟩]) sv.shared } := by
  have hends : task.endsBatch = false := by
    cases task <;> first | rfl | cases htask
  have hbooked := h.booked.begun hover.1 task hlate
  rw [hends] at hbooked
  exact {
    tracks := h.tracks
    lent_eq := h.lent_eq.trans hhandling.symm
    given := by
      refine Eq.trans ?_ h.given
      show shownEvents (sv.calls ++ [⟨task, [], none⟩]) = _
      rw [shownEvents_concat, htask]
      exact List.append_nil _
    told := told_concat h.told fun slot endOfBatch ht => by
      have : task = .event slot endOfBatch := ht
      rw [this] at htask
      cases htask
    booked := ⟨hbooked.metrics_eq, hbooked.status_eq⟩
    shape := hshape
    closed := h.closed
    busy := fun hg => h.busy (hgone.symm.trans hg)
    gone := fun hg => h.gone (hgone.symm.trans hg)
    mute := fun hg => h.mute (hgone.symm.trans hg) }

/-- An event is lent, and the handler is about to see it. -/
theorem inv_lend {handled : Bool} {e : Ring.Lent} {r : Ring} (h : sv.Inv m₀ l₀)
    (hp : sv.phase = .draining handled) (hn : sv.ring.tryNext = (some e, r)) :
    Inv m₀ l₀ { sv with
      dispatcher := { sv.dispatcher with ring := r, phase := .handling }
      shared := withCalls (sv.calls ++ [⟨.event e.slot e.endOfBatch, [], none⟩])
        (sv.shared.counted e.endOfBatch) } := by
  obtain ⟨hlent, hover, hbusy⟩ := h.inPhase hp
  have hlent : sv.ring.lent = false := hlent
  have hover : AllOver sv.calls := hover
  have hbusy := hbusy rfl
  obtain ⟨hpass, hl, hseq, v, hv, hslot⟩ := Ring.tryNext_some h.tracks hlent hn
  have hbooked := h.booked.begun hover.1 (.event e.slot e.endOfBatch) fun _ => hbusy.1
  exact {
    tracks := hpass.tracks
    lent_eq := hl
    given := by
      show shownEvents (sv.calls ++ [⟨.event e.slot e.endOfBatch, [], none⟩])
        = (sv.fates.eventsBelow r.frontier).map Prod.snd
      have hgiven := h.given
      rw [Ring.frontier_of_not_lent hlent, ← hpass.events_eq] at hgiven
      rw [Ring.frontier_of_lent hl, Fates.eventsBelow_succ_published hv, List.map_append,
        ← hgiven, shownEvents_concat]
      show _ ++ [{ e.slot with endOfBatch := false }] = _ ++ [EventSlot.ofValues v]
      rw [hslot]
      rfl
    told := told_concat h.told fun slot endOfBatch ht => by
      cases ht
      rw [hslot]
    booked := ⟨hbooked.metrics_eq, hbooked.status_eq⟩
    shape := ⟨_, _, _, _, hover, rfl⟩
    closed := fun hc => hpass.closed_eq.trans (h.closed hc)
    busy := fun _ => hbusy
    gone := fun hg => by cases hg
    mute := fun hg => by cases hg }

/-- There is nothing to lend. -/
theorem inv_drained {handled : Bool} {r : Ring} (h : sv.Inv m₀ l₀)
    (hp : sv.phase = .draining handled) (hn : sv.ring.tryNext = (none, r)) :
    Inv m₀ l₀ { sv with
      dispatcher := { sv.dispatcher with ring := r, phase := .checking handled } } := by
  have hlent : sv.ring.lent = false := by
    rw [h.lent_eq, hp]
    rfl
  obtain ⟨hpass, -⟩ := Ring.tryNext_none h.tracks hn
  have hl := Ring.lent_tryNext_none hlent hn
  exact {
    tracks := hpass.tracks
    lent_eq := hl
    given := by
      show _ = (sv.fates.eventsBelow r.frontier).map Prod.snd
      rw [Ring.frontier_of_not_lent hl, hpass.events_eq, ← Ring.frontier_of_not_lent hlent]
      exact h.given
    told := h.told
    booked := h.booked
    shape := by
      have := h.shape
      rw [hp] at this
      exact this
    closed := fun hc => hpass.closed_eq.trans (h.closed hc)
    busy := fun _ => h.busy (by rw [hp]; rfl)
    gone := fun hg => by cases hg
    mute := fun hg => by cases hg }

-- ======================================================== calls go on

variable {init : List HandlerCall} {soFar : List StatusEntry} {x : Call (Noted H)}
  {d : Dispatcher} {s : Shared (Noted H)}

/-- The call that is held up has gone on, whether it is over or not, and
what there is to book of it is booked. -/
theorem inv_wentOn {c c' : HandlerCall} {p : Phase} {r : Ring} {s' : Shared (Noted H)}
    (h : sv.Inv m₀ l₀) (hcalls : sv.calls = init ++ [c])
    (hcalls' : s'.handler.calls = init ++ [c']) (htask : c'.task = c.task)
    (hbooked : Booked m₀ l₀ sv.dispatcher.abandoned (init ++ [c']) s')
    (hshape : p.Shape (init ++ [c'])) (hgone : p.isGone = sv.phase.isGone)
    (ht : r.Tracks sv.fates) (hlent : r.lent = p.isHandling)
    (hfrontier : r.frontier = sv.ring.frontier) (hclosed : r.closed = sv.ring.closed)
    (hring : sv.phase.isGone = true → r = sv.ring) :
    Inv m₀ l₀ { sv with
      dispatcher := { sv.dispatcher with ring := r, phase := p }
      shared := s' } where
  tracks := ht
  lent_eq := hlent
  given := by
    show shownEvents s'.handler.calls = (sv.fates.eventsBelow r.frontier).map Prod.snd
    rw [hfrontier, ← h.given, hcalls', hcalls, shownEvents_concat, shownEvents_concat, htask]
  told := by
    have := h.told
    rw [hcalls] at this
    exact (show Told s'.handler.calls from hcalls' ▸ told_of_concat this htask)
  booked := (show Booked m₀ l₀ sv.dispatcher.abandoned s'.handler.calls s' from
    hcalls' ▸ hbooked)
  shape := (show p.Shape s'.handler.calls from hcalls' ▸ hshape)
  closed := fun hc => hclosed.trans (h.closed hc)
  busy := fun hg => h.busy (hgone.symm.trans hg)
  gone := by
    intro hg
    have hg' := hgone.symm.trans hg
    have hr := hring hg'
    rw [hr]
    exact h.gone hg'
  mute := by
    intro hg
    have hg' := hgone.symm.trans hg
    have hr := hring hg'
    rw [hr]
    exact h.mute hg'

/-- The handler has worked on the event for another while. Once the call
is over, the event is released. -/
theorem inv_afterEvent {slot : EventSlot} {endOfBatch : Bool} (h : sv.Inv m₀ l₀)
    (hp : sv.phase = .handling) (hinit : AllOver init)
    (hcalls : sv.calls = init ++ [⟨.event slot endOfBatch, soFar, none⟩])
    (hx : x.state.calls
      = init ++ [⟨.event slot endOfBatch, soFar ++ x.reports, x.outcome⟩])
    (hd : Dispatcher.afterEvent x sv.dispatcher sv.shared = (d, s)) :
    Inv m₀ l₀ { sv with dispatcher := d, shared := s } := by
  have hgone : sv.phase.isGone = false := by
    rw [hp]
    rfl
  have hlent : sv.ring.lent = true := by
    rw [h.lent_eq, hp]
    rfl
  have hlate := fun _ : false = false => (h.busy hgone).1
  have hbooked := h.booked
  rw [hcalls] at hbooked
  have habsorbed := hbooked.absorbed hinit.1 hlate rfl x
  unfold Dispatcher.afterEvent at hd
  cases ho : x.outcome with
  | none =>
      rw [ho] at hx hd
      cases hd
      exact inv_wentOn (r := sv.ring) h hcalls hx rfl habsorbed ⟨_, _, _, _, hinit, rfl⟩
        hgone.symm h.tracks hlent rfl rfl fun _ => rfl
  | some o =>
      rw [ho] at hx hd
      cases hd
      obtain ⟨v, -, ht, -⟩ := Ring.release_lent h.tracks hlent
      exact inv_wentOn h hcalls hx rfl (habsorbed.ended hinit.1 hlate rfl o)
        (allOver_concat hinit rfl _ _) hgone.symm ht rfl (Ring.frontier_release hlent) rfl
        fun hg => absurd hg (Bool.eq_false_iff.1 hgone)

/-- The handler has flushed for another while. -/
theorem inv_afterFlush {handled : Bool} {ticket : Nat} (h : sv.Inv m₀ l₀)
    (hp : sv.phase = .heldInFlush handled ticket) (hinit : AllOver init)
    (hcalls : sv.calls = init ++ [⟨.flush, soFar, none⟩])
    (hx : x.state.calls = init ++ [⟨.flush, soFar ++ x.reports, x.outcome⟩])
    (hd : Dispatcher.afterFlush handled ticket x sv.dispatcher sv.shared = (d, s)) :
    Inv m₀ l₀ { sv with dispatcher := d, shared := s } := by
  have hgone : sv.phase.isGone = false := by
    rw [hp]
    rfl
  have hlent : sv.ring.lent = false := by
    rw [h.lent_eq, hp]
    rfl
  have hlate := fun _ : false = false => (h.busy hgone).1
  have hbooked := h.booked
  rw [hcalls] at hbooked
  have habsorbed := hbooked.absorbed hinit.1 hlate rfl x
  unfold Dispatcher.afterFlush at hd
  cases ho : x.outcome with
  | none =>
      rw [ho] at hx hd
      cases hd
      exact inv_wentOn (r := sv.ring) h hcalls hx rfl habsorbed ⟨_, _, hinit, rfl⟩
        hgone.symm h.tracks hlent rfl rfl fun _ => rfl
  | some o =>
      rw [ho] at hx hd
      cases hd
      exact inv_wentOn (r := sv.ring) h hcalls hx rfl (habsorbed.ended hinit.1 hlate rfl o)
        (allOver_concat hinit rfl _ _) hgone.symm h.tracks hlent rfl rfl fun _ => rfl

/-- The handler has shut down for another while. -/
theorem inv_afterStop (h : sv.Inv m₀ l₀) (hp : sv.phase = .heldInStop) (hinit : AllOver init)
    (hcalls : sv.calls = init ++ [⟨.shutdown, soFar, none⟩])
    (hx : x.state.calls = init ++ [⟨.shutdown, soFar ++ x.reports, x.outcome⟩])
    (hd : Dispatcher.afterStop x sv.dispatcher sv.shared = (d, s)) :
    Inv m₀ l₀ { sv with dispatcher := d, shared := s } := by
  have hgone : sv.phase.isGone = true := by
    rw [hp]
    rfl
  have hlent : sv.ring.lent = false := by
    rw [h.lent_eq, hp]
    rfl
  have hlate : true = false → sv.dispatcher.abandoned = 0 := fun ht => by cases ht
  have hbooked := h.booked
  rw [hcalls] at hbooked
  have habsorbed := hbooked.absorbed hinit.1 hlate rfl x
  unfold Dispatcher.afterStop at hd
  cases ho : x.outcome with
  | none =>
      rw [ho] at hx hd
      cases hd
      exact inv_wentOn (r := sv.ring) h hcalls hx rfl habsorbed ⟨_, _, hinit, rfl⟩
        hgone.symm h.tracks hlent rfl rfl fun _ => rfl
  | some o =>
      rw [ho] at hx hd
      cases hd
      exact inv_wentOn (r := sv.ring) h hcalls hx rfl (habsorbed.ended hinit.1 hlate rfl o)
        ⟨_, _, _, hinit, rfl⟩ hgone.symm h.tracks hlent rfl rfl fun _ => rfl

-- ============================================================ leaving

/-- The dispatcher leaves and knows what it leaves behind. -/
theorem inv_leave {handled : Bool} {n : Nat} (h : sv.Inv m₀ l₀)
    (hp : sv.phase = .deciding handled) (hclosed : sv.dispatcher.closed = true)
    (hn : sv.ring.claimed = sv.ring.consumed + n) :
    Inv m₀ l₀ { sv with
      dispatcher := { sv.dispatcher with abandoned := n, phase := .leaving }
      shared := Dispatcher.report (leftBehind n) sv.shared } := by
  obtain ⟨habandoned, hlate⟩ := h.busy (by rw [hp]; rfl)
  have hover : AllOver sv.calls := by
    have := h.shape
    rw [hp] at this
    exact this
  have hbooked := h.booked
  rw [habandoned] at hbooked
  exact {
    tracks := h.tracks
    lent_eq := by
      refine h.lent_eq.trans ?_
      rw [hp]
      rfl
    given := h.given
    told := h.told
    booked := hbooked.left hover.1 n
    shape := hover
    closed := h.closed
    busy := fun hg => by cases hg
    gone := by
      intro _
      refine ⟨h.closed hclosed, ?_⟩
      show sv.ring.claimed = sv.ring.consumed + n + sv.late
      rw [hlate]
      exact hn
    mute := by
      intro _ s hs f hf
      -- nothing is taken from there on
      have hlt := Fates.lt_of_getElem? hf
      have hlen : sv.fates.length = sv.ring.claimed := h.tracks.length_eq
      have hs' : sv.ring.consumed + n ≤ s := hs
      have hlt' : s < sv.fates.length := hlt
      omega }

-- =============================================================== steps

theorem afterEvent_begun {X : Type} (y : Call X) (p : Phase) (n : X) (d : Dispatcher)
    (s : Shared X) :
    Dispatcher.afterEvent y { d with phase := p } { s with handler := n }
      = Dispatcher.afterEvent y d s := by
  unfold Dispatcher.afterEvent
  cases y.outcome <;> rfl

theorem afterFlush_begun {X : Type} (handled : Bool) (ticket : Nat) (y : Call X) (p : Phase)
    (n : X) (d : Dispatcher) (s : Shared X) :
    Dispatcher.afterFlush handled ticket y { d with phase := p } { s with handler := n }
      = Dispatcher.afterFlush handled ticket y d s := by
  unfold Dispatcher.afterFlush
  cases y.outcome <;> rfl

theorem afterStop_begun {X : Type} (y : Call X) (p : Phase) (n : X) (d : Dispatcher)
    (s : Shared X) :
    Dispatcher.afterStop y { d with phase := p } { s with handler := n }
      = Dispatcher.afterStop y d s := by
  unfold Dispatcher.afterStop
  cases y.outcome <;> rfl

/-- A step of the dispatcher keeps the accounts, whatever the phase. -/
theorem inv_dispatch (hh : Handler H) (h : sv.Inv m₀ l₀)
    (hs : sv.dispatcher.step hh.noted sv.shared = some (d, s)) :
    Inv m₀ l₀ { sv with dispatcher := d, shared := s } := by
  cases Dispatcher.stepped_of_step hs with
  | close hp hbusy hstop hclosed =>
      obtain ⟨hlent, hover, hleft⟩ := h.inPhase hp
      exact {
        tracks := h.tracks.close
        lent_eq := hlent
        given := h.given
        told := h.told
        booked := h.booked
        shape := hover
        closed := fun _ => rfl
        busy := hleft
        gone := fun hg => by cases hg
        mute := fun hg => by cases hg }
  | drain hp | due hp | undue hp | store hp | again hp => exact inv_turn h hp rfl rfl rfl rfl rfl id
  | dry hp hnext => exact inv_drained h hp hnext
  | @event handled e ring _ _ hp hnext hafter =>
      have hover : AllOver sv.calls := (h.inPhase hp).2.1
      have hx : (hh.noted.onEvent e.slot e.endOfBatch sv.shared.handler).state.calls = _ := rfl
      have hdone := inv_afterEvent (inv_lend h hp hnext) rfl hover rfl hx
        ((afterEvent_begun _ .handling _ _ _).trans hafter)
      exact hdone
  | eventOn hp hc hafter =>
      obtain ⟨init, slot, endOfBatch, soFar, hinit, hcalls⟩ := (h.inPhase hp).2.1
      exact inv_afterEvent h hp hinit hcalls (Handler.calls_resumed hc hcalls) hafter
  | @flush handled ticket _ _ hp hafter =>
      obtain ⟨-, hover, hbusy⟩ := h.inPhase hp
      have hbegun := inv_begin (p := .heldInFlush handled ticket) h hover rfl
        (congrArg Phase.isHandling hp).symm (congrArg Phase.isGone hp).symm
        (fun _ => (hbusy rfl).1) ⟨_, _, hover, rfl⟩
      have hdone := inv_afterFlush hbegun rfl hover rfl rfl
        ((afterFlush_begun _ _ _ (.heldInFlush handled ticket) _ _ _).trans hafter)
      exact hdone
  | flushOn hp hc hafter =>
      obtain ⟨init, soFar, hinit, hcalls⟩ := (h.inPhase hp).2.1
      exact inv_afterFlush h hp hinit hcalls (Handler.calls_resumed hc hcalls) hafter
  | leave hp hclosed hup =>
      -- everything was handled, and nothing is left behind
      have hle := h.tracks.consumed_le
      have hup' : sv.ring.claimed ≤ sv.ring.consumed := of_decide_eq_true hup
      have hleft := inv_leave (n := 0) h hp hclosed (by omega)
      have hnone : { sv.dispatcher with phase := .leaving }
          = { sv.dispatcher with abandoned := 0, phase := .leaving } := by
        rw [← ((h.inPhase hp).2.2 rfl).1]
      rw [hnone]
      exact hleft
  | giveUp hp hclosed hbehind hexpired =>
      have hbehind' : ¬ sv.ring.claimed ≤ sv.ring.consumed := of_decide_eq_false hbehind
      have hback : sv.ring.claimed = sv.ring.consumed + sv.ring.backlog := by
        show _ = _ + (sv.ring.claimed - sv.ring.consumed)
        omega
      have hleft := inv_leave h hp hclosed hback
      have hne : sv.ring.backlog ≠ 0 := by omega
      rw [leftBehind, if_neg hne] at hleft
      exact hleft
  | depart hp =>
      obtain ⟨hlent, hover, -⟩ := h.inPhase hp
      have hgone := h.gone (congrArg Phase.isGone hp)
      exact {
        tracks := h.tracks.close.untake
        lent_eq := hlent
        given := h.given
        told := h.told
        booked := h.booked
        shape := hover
        closed := fun _ => rfl
        busy := fun hg => by cases hg
        gone := fun _ => ⟨rfl, hgone.2⟩
        mute := fun _ => h.mute (congrArg Phase.isGone hp) }
  | stop hp hafter =>
      obtain ⟨-, hover, -⟩ := h.inPhase hp
      have hbegun := inv_begin (p := .heldInStop) h hover rfl
        (congrArg Phase.isHandling hp).symm (congrArg Phase.isGone hp).symm
        (fun ht => by cases ht) ⟨_, _, hover, rfl⟩
      have hdone := inv_afterStop hbegun rfl hover rfl rfl
        ((afterStop_begun _ .heldInStop _ _ _).trans hafter)
      exact hdone
  | stopOn hp hc hafter =>
      obtain ⟨init, soFar, hinit, hcalls⟩ := (h.inPhase hp).2.1
      exact inv_afterStop h hp hinit hcalls (Handler.calls_resumed hc hcalls) hafter

/-- Whatever happens, the accounts are kept. -/
theorem inv_step (hh : Handler H) (h : sv.Inv m₀ l₀) (op : ServiceOp) :
    (sv.step hh.noted op).Inv m₀ l₀ := by
  cases op with
  | produce op =>
      exact inv_of_kept h (Traffic.kept_produce h.tracks op)
        fun hclosed s hm => Traffic.muteAt_produce hclosed hm op
  | arrive =>
      simp only [step]
      split
      · exact h
      · exact ⟨h.tracks, h.lent_eq, h.given, h.told, h.booked, h.shape, h.closed, h.busy,
          h.gone, h.mute⟩
  | draw => exact inv_draw h
  | requestFlush => exact inv_turn h rfl rfl rfl rfl rfl rfl id
  | requestStop => exact inv_turn h rfl rfl rfl rfl rfl rfl id
  | expire => exact inv_turn h rfl rfl rfl rfl rfl rfl id
  | step =>
      simp only [step]
      split
      · exact h
      · next d s hs => exact inv_dispatch hh h hs

/-- Along every run the accounts are kept. -/
theorem inv_run (hh : Handler H) (ops : List ServiceOp) (h : sv.Inv m₀ l₀) :
    (sv.run hh.noted ops).Inv m₀ l₀ := by
  induction ops generalizing sv with
  | nil => exact h
  | cons op rest ih => exact ih (inv_step hh h op)

/-- Nobody is late where every producer takes its sequence at once. -/
theorem late_run (hh : Handler H) (ops : List ServiceOp) (hops : ∀ op ∈ ops, op ≠ .draw)
    (sv : Service H) : (sv.run hh ops).late = sv.late := by
  induction ops generalizing sv with
  | nil => rfl
  | cons op rest ih =>
      have hstep : (sv.step hh op).late = sv.late := by
        cases op with
        | arrive =>
            simp only [step]
            split <;> rfl
        | draw => exact absurd rfl (hops .draw (List.mem_cons_self ..))
        | step =>
            simp only [step]
            split <;> rfl
        | _ => rfl
      exact (ih (fun op hop => hops op (List.mem_cons_of_mem _ hop)) _).trans hstep

end Service

end LogPipeline
