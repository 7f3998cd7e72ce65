/-
Who has the appenders while a logger is at work. A synchronous logger
calls them itself (`Attends`), an asynchronous one has left them to its
dispatcher (`Manned`); either way they have been called for what was
published, or will have been when the dispatcher has got so far, and for
nothing else but flushes. Each of the happenings that a run is made of
leaves it at that (`keeps_attends`, `keeps_staffed`).

# What was published

A dispatcher is a service with the record of its ring, so its accounts
say what it has called for. The record tells sequences, and the logger
was offered events: `Fates.Filled` says which event each sequence was
taken for. A caller that is rejected, or still waits, leaves an event
without a place among those that were published; that is why what is
published is a sublist of what was offered.
-/
import LogPipeline.Proofs.Appender.Careers
import LogPipeline.Proofs.Logger.Accounting
import LogPipeline.Proofs.Logger.Keeping

namespace LogPipeline

namespace Dispatcher

/-- A step beside one with notes, of a handler that stands in the same state. -/
theorem step_beside {H : Type} {h : Handler H} {d : Dispatcher} {s₁ : Shared H}
    {s : Shared (Noted H)} {o : Dispatcher × Shared H} (hs : s₁.handler = s.handler.state)
    (ho : step h d s₁ = some o) :
    ∃ d' s', step h.noted d s = some (d', s') ∧ o.1 = d' ∧ o.2.handler = s'.handler.state
      ∧ o.2.metrics.published = s₁.metrics.published := by
  obtain ⟨o₂, ho₂, halike⟩ := alike_step (show s₁.handler = s.plain.handler from hs) ho
  rw [← step_noted] at ho₂
  obtain ⟨⟨d', s'⟩, hnoted, rfl⟩ := Option.map_eq_some_iff.1 ho₂
  exact ⟨d', s', hnoted, halike.dispatcher, halike.handler, halike.published.1⟩

end Dispatcher

namespace Logger

variable {α S : Type} {ops : AppenderOps α S} {members : List α} {vs given : List EventValues}
  {ws : List Ring.Waiter} {l : Logger α} {site : Site (Recorded α S)}
  {sv : Service (Noted (Crew α (Recorded α S)))}

-- ============================================ appenders of a dispatcher

/-- The appenders of an asynchronous logger are in the hands of its
dispatcher, which has called them for what was published. -/
structure Manned (ops : AppenderOps α S) (members : List α) (given : List EventValues)
    (ws : List Ring.Waiter) (l : Logger α) (site : Site (Recorded α S))
    (sv : Service (Noted (Crew α (Recorded α S)))) : Prop where
  inv : ∃ m₀ l₀, sv.Inv m₀ l₀
  career : Crew.Career ops members sv.shared.handler
  backend_eq : l.backend
    = .async sv.dispatcher sv.shared.handler.state.set sv.shared.handler.state.round
  world_eq : site.world = sv.shared.handler.state.world
  filled : sv.fates.Filled given ws
  published_eq : l.metrics.published = sv.fates.published.length

theorem manned_dispatch (h : Manned ops members given ws l site sv) :
    ∃ sv', Manned ops members given ws (l.dispatch ops.recorded 1 site).1
      (l.dispatch ops.recorded 1 site).2 sv' := by
  obtain ⟨m₀, l₀, hinv⟩ := h.inv
  unfold dispatch
  rw [h.backend_eq, h.world_eq]
  dsimp only [Dispatcher.settleFor]
  cases ho : Dispatcher.step (Crew.handler ops.recorded) sv.dispatcher
      ⟨l.metrics, site.status, sv.shared.handler.state⟩ with
  | none => exact ⟨sv, { h with backend_eq := rfl, world_eq := rfl }⟩
  | some o =>
      obtain ⟨d', s', hs, hdispatcher, hhandler, hpublished⟩ :=
        Dispatcher.step_beside (s := sv.shared) rfl ho
      refine ⟨{ sv with dispatcher := d', shared := s' }, ?_⟩
      exact {
        inv := ⟨m₀, l₀, Service.inv_dispatch _ hinv hs⟩
        career := Service.career_step hinv h.career hs
        backend_eq := by
          dsimp only
          rw [hdispatcher, hhandler]
        world_eq := congrArg Crew.world hhandler
        filled := h.filled
        published_eq := hpublished.trans h.published_eq }

/-- What is asked of the dispatcher is no concern of its appenders. -/
theorem manned_asked {f : Dispatcher → Dispatcher} (hf : Asks f)
    (h : Manned ops members given ws l site sv) :
    Manned ops members given ws (l.onDispatcher f) site
      { sv with dispatcher := f sv.dispatcher } := by
  obtain ⟨m₀, l₀, hinv⟩ := h.inv
  unfold onDispatcher
  rw [h.backend_eq]
  have hinv' : Service.Inv m₀ l₀ { sv with dispatcher := f sv.dispatcher } := by
    cases hf with
    | flush => exact Service.inv_step (Crew.handler ops.recorded) hinv .requestFlush
    | stop => exact Service.inv_step (Crew.handler ops.recorded) hinv .requestStop
    | expire => exact Service.inv_step (Crew.handler ops.recorded) hinv .expire
  exact { h with
    inv := ⟨m₀, l₀, hinv'⟩
    backend_eq := rfl }

/-- A caller takes a sequence for its event, and now waits for the cell. -/
theorem manned_reserved (h : Manned ops members given ws l site sv) {seq : Nat} {ring : Ring}
    (hring : sv.ring.reserve = some (seq, ring)) (v : EventValues) :
    ∃ sv', Manned ops members (given ++ [v]) (⟨seq, v⟩ :: ws)
      (l.onDispatcher ({ · with ring })) site sv' := by
  obtain ⟨m₀, l₀, hinv⟩ := h.inv
  have hseq : seq = sv.fates.length := by
    rw [hinv.tracks.length_eq]
    unfold Ring.reserve at hring
    split at hring <;> cases hring
    rfl
  have hinv' := Service.inv_step (Crew.handler ops.recorded) hinv (.produce .reserve)
  have hdrawn : sv.traffic.produce .reserve = ⟨ring, sv.fates ++ [.reserved]⟩ := by
    have hreserve : sv.traffic.ring.reserve = some (seq, ring) := hring
    unfold Traffic.produce
    rw [hreserve]
    rfl
  rw [show sv.step _ (.produce .reserve) = sv.withTraffic (sv.traffic.produce .reserve) from rfl,
    hdrawn] at hinv'
  refine ⟨_, ⟨m₀, l₀, hinv'⟩, h.career, ?_, h.world_eq, ?_, ?_⟩
  · unfold onDispatcher
    rw [h.backend_eq]
    rfl
  · rw [hseq]
    exact h.filled.draw v
  · unfold onDispatcher
    rw [h.backend_eq]
    show l.metrics.published = (Fates.published (sv.fates ++ [.reserved])).length
    unfold Fates.published
    rw [List.filterMap_append, List.length_append]
    exact h.published_eq

/-- A caller that waits asks for its cell, and hears something. -/
theorem manned_heard {w : Ring.Waiter} (h : Manned ops members given (w :: l.waiters) l site sv) :
    let l' := (l.onDispatcher ({ · with ring := (sv.ring.retry w).2 })).heard w (sv.ring.retry w).1
    ∃ sv', Manned ops members given l'.waiters l' site sv' := by
  obtain ⟨m₀, l₀, hinv⟩ := h.inv
  have hw := h.filled.waiting w List.mem_cons_self
  obtain ⟨f, htold, hattempt⟩ := Traffic.attempt_eq (t := sv.traffic) hw
  -- to hear the answer is to confirm, and to publish if that was granted
  have hinv' : Service.Inv m₀ l₀ (sv.withTraffic (sv.traffic.attempt w)) :=
    Service.inv_run (Crew.handler ops.recorded)
      [.produce (.confirm w.sequence), .produce (.publish w.sequence w.values)] hinv
  rw [hattempt] at hinv'
  intro l'
  have hl' : l' = { l with
      backend := .async { sv.dispatcher with ring := (sv.ring.retry w).2 }
        sv.shared.handler.state.set sv.shared.handler.state.round
      metrics := l.metrics.told (sv.ring.retry w).1
      waiters := if (sv.ring.retry w).1.isSome then l.waiters else l.waiters ++ [w] } := by
    show heard _ _ _ = _
    unfold onDispatcher
    rw [h.backend_eq]
    rfl
  rw [hl']
  refine ⟨_, ⟨m₀, l₀, hinv'⟩, h.career, rfl, h.world_eq, ?_, ?_⟩
  · refine (h.filled.heard htold).perm ?_
    show List.Perm (if (sv.ring.retry w).1.isSome then l.waiters else l.waiters ++ [w])
      (if (sv.ring.retry w).1.isSome then l.waiters else w :: l.waiters)
    split
    · exact .refl _
    · exact List.perm_append_singleton w l.waiters
  · show (l.metrics.told (sv.ring.retry w).1).published
      = (Fates.published (sv.fates.set w.sequence f)).length
    rw [Fates.length_published_set hw rfl f, ← h.published_eq]
    have htold' : Traffic.Told w (sv.ring.retry w).1 f := htold
    -- the counter and the record agree on what the waiter was told
    rcases hanswer : (sv.ring.retry w).1 with _ | (_ | _)
    · rw [hanswer] at htold'
      rw [show f = .reserved from htold']
      rfl
    · rw [hanswer] at htold'
      rcases htold' with rfl | rfl <;> rfl
    · rw [hanswer] at htold'
      rw [show f = .published w.values from htold']
      rfl

/-- An event is published on the ring, or its caller waits, or it is rejected. -/
theorem manned_publishAsync (h : Manned ops members given l.waiters l site sv) (v : EventValues) :
    ∃ given' sv', given'.Sublist (given ++ [v])
      ∧ Manned ops members given' (publishAsync v sv.dispatcher sv.shared.handler.state.set
          sv.shared.handler.state.round l).waiters
        (publishAsync v sv.dispatcher sv.shared.handler.state.set
          sv.shared.handler.state.round l) site sv' := by
  cases hring : sv.dispatcher.ring.reserve with
  | none =>
      unfold publishAsync
      rw [hring]
      exact ⟨given, sv, List.sublist_append_left given [v], { h with }⟩
  | some o =>
      obtain ⟨seq, ring⟩ := o
      obtain ⟨sv₁, h₁⟩ := manned_reserved h hring v
      obtain ⟨l₁, hl₁⟩ : ∃ l₁, l₁ = l.onDispatcher ({ · with ring }) := ⟨_, rfl⟩
      rw [publishAsync_eq h.backend_eq hring, ← hl₁]
      have hl₁' : l₁ = { l with
          backend := .async { sv.dispatcher with ring } sv.shared.handler.state.set
            sv.shared.handler.state.round } := by
        rw [hl₁]
        unfold onDispatcher
        rw [h.backend_eq]
      have hwaiters : l₁.waiters = l.waiters := by rw [hl₁']
      have hring₁ : sv₁.ring = ring := by
        have hbackend := h₁.backend_eq
        rw [← hl₁, hl₁'] at hbackend
        injection hbackend with hdispatcher
        exact congrArg Dispatcher.ring hdispatcher.symm
      rw [← hl₁, ← hwaiters] at h₁
      obtain ⟨sv₂, h₂⟩ := manned_heard h₁
      rw [hring₁] at h₂
      exact ⟨given ++ [v], sv₂, .refl _, h₂⟩

/-- A caller that waits asks again. -/
theorem manned_retryAt (i : Nat) (h : Manned ops members given l.waiters l site sv) :
    ∃ sv', Manned ops members given (l.retryAt i).waiters (l.retryAt i) site sv' := by
  unfold retryAt
  cases hw : l.waiters[i]? with
  | none => exact ⟨sv, h⟩
  | some w =>
      obtain ⟨hi, hget⟩ := List.getElem?_eq_some_iff.1 hw
      have hperm : (w :: l.waiters.eraseIdx i).Perm l.waiters :=
        hget ▸ List.getElem_cons_eraseIdx_perm hi
      obtain ⟨l₁, hl₁⟩ : ∃ l₁, l₁ = { l with waiters := l.waiters.eraseIdx i } := ⟨_, rfl⟩
      have h₁ : Manned ops members given (w :: l₁.waiters) l₁ site sv := by
        rw [hl₁]
        exact { h with filled := h.filled.perm hperm }
      obtain ⟨sv₂, h₂⟩ := manned_heard h₁
      dsimp only
      rw [← hl₁]
      rcases retryWaiter_eq h₁.backend_eq w with heq | heq
      · rw [heq]
        exact ⟨sv₂, h₂⟩
      · rw [heq]
        exact ⟨sv₂, { h₂ with }⟩

/-- Others do nothing to the appenders. -/
def Apart (f : Site (Recorded α S) → Site (Recorded α S)) : Prop :=
  ∀ site, (f site).world.deeds = site.world.deeds

/-- The state that appenders act on is changed, and nothing is done to them. -/
theorem manned_outside {f : Site (Recorded α S) → Site (Recorded α S)} (hf : Apart f)
    (h : Manned ops members given ws l site sv) :
    ∃ sv', Manned ops members given ws l (f site) sv' := by
  obtain ⟨m₀, l₀, hinv⟩ := h.inv
  obtain ⟨n, hn⟩ : ∃ n : Noted (Crew α (Recorded α S)), n = { sv.shared.handler with
    state := { sv.shared.handler.state with world := (f site).world } } := ⟨_, rfl⟩
  have hcareer : Crew.Career ops members n := by
    have hdeeds : (f site).world.deeds = sv.shared.handler.state.world.deeds :=
      (hf site).trans (congrArg Recorded.deeds h.world_eq)
    have hacts : n.state.world.acts = sv.shared.handler.state.world.acts := by
      rw [hn]
      exact congrArg (List.map Deed.act) hdeeds
    have hrest := h.career.acts_eq
    rw [← hacts] at hrest
    rw [hn] at hrest ⊢
    exact ⟨h.career.idle, h.career.set_eq, hrest⟩
  have hinv' : Service.Inv m₀ l₀ { sv with shared := { sv.shared with handler := n } } := by
    rw [hn]
    exact ⟨hinv.tracks, hinv.lent_eq, hinv.given, hinv.told,
      ⟨hinv.booked.metrics_eq, hinv.booked.status_eq⟩, hinv.shape, hinv.closed, hinv.busy,
      hinv.gone, hinv.mute⟩
  refine ⟨_, ⟨m₀, l₀, hinv'⟩, hcareer, ?_, ?_, h.filled, h.published_eq⟩
  · rw [hn]
    exact h.backend_eq
  · rw [hn]

/-- So much was offered, and some of it was given a sequence. -/
def Staffed (ops : AppenderOps α S) (members : List α) (vs : List EventValues) (l : Logger α)
    (site : Site (Recorded α S)) : Prop :=
  ∃ given sv, given.Sublist vs ∧ Manned ops members given l.waiters l site sv

/-- What is between a dispatcher and its appenders is so whatever happens. -/
theorem keeps_staffed (ops : AppenderOps α S) (members : List α) :
    Keeps ops.recorded Apart (Staffed ops members) where
  offer v := fun ⟨given, sv, hsub, h⟩ => ⟨given, sv, hsub.trans (List.sublist_append_left _ _), h⟩
  mark hl := fun ⟨given, sv, hsub, h⟩ => by
    refine ⟨given, sv, hsub, ?_⟩
    rw [hl.waiters_eq]
    exact { h with
      backend_eq := hl.backend_eq.trans h.backend_eq
      published_eq := hl.published_eq.trans h.published_eq }
  status _ := fun ⟨given, sv, hsub, h⟩ => ⟨given, sv, hsub, { h with world_eq := h.world_eq }⟩
  outside hf := fun ⟨given, _, hsub, h⟩ =>
    have ⟨sv', h'⟩ := manned_outside hf h
    ⟨given, sv', hsub, h'⟩
  step {_ l site} := fun ⟨given, _, hsub, h⟩ => by
    have hwaiters : (l.dispatch ops.recorded 1 site).1.waiters = l.waiters := by
      unfold dispatch
      split <;> rfl
    obtain ⟨sv', h'⟩ := manned_dispatch h
    exact ⟨given, sv', hsub, hwaiters ▸ h'⟩
  ask {_ l _ f} hf := fun ⟨given, _, hsub, h⟩ => by
    have hwaiters : (l.onDispatcher f).waiters = l.waiters := by
      unfold onDispatcher
      split <;> rfl
    exact ⟨given, _, hsub, hwaiters ▸ manned_asked hf h⟩
  publish v hbackend := fun ⟨given, sv, hsub, h⟩ => by
    have hsame := hbackend.symm.trans h.backend_eq
    injection hsame with hd hset hround
    subst hd hset hround
    obtain ⟨given', sv', hsub', h'⟩ := manned_publishAsync h v
    exact ⟨given', sv', hsub'.trans (hsub.append_right _), h'⟩
  retry i := fun ⟨given, _, hsub, h⟩ =>
    have ⟨sv', h'⟩ := manned_retryAt i h
    ⟨given, sv', hsub, h'⟩
  deliver _ hbackend := fun ⟨_, _, _, h⟩ => nomatch hbackend.symm.trans h.backend_eq
  flushed hbackend := fun ⟨_, _, _, h⟩ => nomatch hbackend.symm.trans h.backend_eq

/-- A new logger, whose appenders have had no call. -/
theorem staffed_start (ops : AppenderOps α S) (settings : LoggerSettings) (size : Nat)
    (members : List α) (status : StatusLog) (s : S) :
    Staffed ops members [] (fresh settings (.async (.onNewRing size) ⟨members⟩ none))
      ⟨status, ⟨s, []⟩⟩ := by
  obtain ⟨s₀, hs₀⟩ : ∃ s₀ : Shared (Crew α (Recorded α S)),
    s₀ = ⟨.zero, status, ⟨⟨members⟩, none, ⟨s, []⟩⟩⟩ := ⟨_, rfl⟩
  refine ⟨[], .start size s₀.noted, .refl _, ⟨s₀.metrics, s₀.status, Service.inv_start size s₀⟩,
    ?_, ?_, ?_, ?_, rfl⟩
  · rw [hs₀]
    exact Crew.career_start ops members s
  · rw [hs₀]
    rfl
  · rw [hs₀]
    rfl
  · exact ⟨⟨fun w hw => (by cases hw), List.nodup_nil⟩, rfl, fun s v hs => (by cases hs),
      fun w hw => by cases hw⟩

-- =========================================== appenders of the logger itself

/-- A synchronous logger calls its appenders itself, and has done so for
what was published. -/
structure Attends (ops : AppenderOps α S) (members : List α) (vs : List EventValues)
    (l : Logger α) (site : Site (Recorded α S)) : Prop where
  backend_eq : ∃ slot, l.backend = .sync (some (slot, ⟨members⟩))
  called : ∃ (calls : List SetCall) (published : List EventValues),
    SetCall.events calls = published.map EventSlot.ofValues ∧ published.Sublist vs
      ∧ published.length = l.metrics.published
      ∧ site.world.acts = calls.flatMap fun c => members.flatMap (c.errand.actsOn ops)

/-- One more call on the set. -/
theorem acts_concat {calls : List SetCall} {c : SetCall}
    (h : site.world.acts = calls.flatMap fun c => members.flatMap (c.errand.actsOn ops)) :
    ((AppenderSet.mk members).run ops.recorded c.errand site.world).state.acts
      = (calls ++ [c]).flatMap fun c => members.flatMap (c.errand.actsOn ops) := by
  rw [List.flatMap_append, List.flatMap_singleton, ← h]
  exact Errand.acts_visitAll c.errand members .clean site.world

theorem attends_publishSync {slot : EventSlot} {set : AppenderSet α} (v : EventValues)
    (hbackend : l.backend = .sync (some (slot, set))) (h : Attends ops members vs l site) :
    Attends ops members (vs ++ [v]) (publishSync ops.recorded v slot set l site).1
      (publishSync ops.recorded v slot set l site).2 := by
  obtain ⟨slot₀, hbackend₀⟩ := h.backend_eq
  have hsame := hbackend.symm.trans hbackend₀
  injection hsame with hsame
  injection hsame with hsame
  obtain rfl : set = ⟨members⟩ := congrArg Prod.snd hsame
  obtain ⟨calls, published, hevents, hsub, hlength, hacts⟩ := h.called
  unfold publishSync
  rw [EventSlot.setValues_eq]
  dsimp only
  obtain ⟨c, hc⟩ : ∃ c, c = SetCall.deliver { EventSlot.ofValues v with endOfBatch := true } true :=
    ⟨_, rfl⟩
  refine ⟨⟨_, rfl⟩, calls ++ [c], published ++ [v], ?_, hsub.append_right [v], ?_, ?_⟩
  · unfold SetCall.events at hevents ⊢
    rw [List.filterMap_append, hevents, List.map_append, hc]
    rfl
  · rw [List.length_append, hlength]
    cases Outcome.ofExcept _ <;> rfl
  · rw [← acts_concat hacts, hc]
    rfl

theorem attends_flush {slot : EventSlot} {set : AppenderSet α}
    (hbackend : l.backend = .sync (some (slot, set))) (h : Attends ops members vs l site) :
    Attends ops members vs l (site.absorb (set.flush ops.recorded site.world)) := by
  obtain ⟨slot₀, hbackend₀⟩ := h.backend_eq
  have hsame := hbackend.symm.trans hbackend₀
  injection hsame with hsame
  injection hsame with hsame
  obtain rfl : set = ⟨members⟩ := congrArg Prod.snd hsame
  obtain ⟨calls, published, hevents, hsub, hlength, hacts⟩ := h.called
  refine ⟨h.backend_eq, calls ++ [.flush], published, ?_, hsub, hlength, ?_⟩
  · unfold SetCall.events at hevents ⊢
    rw [List.filterMap_append, hevents]
    exact List.append_nil _
  · rw [← acts_concat hacts]
    rfl

/-- What is between a logger and the appenders it calls itself is so
whatever happens. -/
theorem keeps_attends (ops : AppenderOps α S) (members : List α) :
    Keeps ops.recorded Apart (Attends ops members) where
  offer v h := by
    obtain ⟨calls, published, hevents, hsub, hrest⟩ := h.called
    have hsub' := hsub.trans (List.sublist_append_left _ [v])
    exact ⟨h.backend_eq, calls, published, hevents, hsub', hrest⟩
  mark hl h := by
    obtain ⟨slot, hbackend⟩ := h.backend_eq
    refine ⟨⟨slot, hl.backend_eq.trans hbackend⟩, ?_⟩
    rw [hl.published_eq]
    exact h.called
  status _ h := ⟨h.backend_eq, h.called⟩
  outside hf h := by
    refine ⟨h.backend_eq, ?_⟩
    unfold Recorded.acts
    rw [hf]
    exact h.called
  step h := by
    obtain ⟨slot, hbackend⟩ := h.backend_eq
    unfold dispatch
    rw [hbackend]
    exact h
  ask _ h := by
    obtain ⟨slot, hbackend⟩ := h.backend_eq
    unfold onDispatcher
    rw [hbackend]
    exact h
  publish _ hbackend h := by
    obtain ⟨slot, hbackend'⟩ := h.backend_eq
    exact nomatch hbackend.symm.trans hbackend'
  retry {_ l _} i h := by
    obtain ⟨slot, hbackend⟩ := h.backend_eq
    -- nobody waits for a cell where there is no ring
    have hidle : ∀ l' : Logger α, l'.backend = .sync (some (slot, ⟨members⟩)) → ∀ w,
        l'.retryWaiter w = l' := by
      intro l' hl' w
      unfold retryWaiter
      rw [hl']
    unfold retryAt
    split
    · exact h
    · rw [hidle { l with waiters := l.waiters.eraseIdx i } hbackend]
      exact { h with }
  deliver v hbackend h := attends_publishSync v hbackend h
  flushed hbackend h := attends_flush hbackend h

theorem attends_start (ops : AppenderOps α S) (settings : LoggerSettings) (slot : EventSlot)
    (members : List α) (status : StatusLog) (s : S) :
    Attends ops members [] (fresh settings (.sync (some (slot, ⟨members⟩)))) ⟨status, ⟨s, []⟩⟩ :=
  ⟨⟨slot, rfl⟩, [], [], rfl, .refl _, rfl, rfl⟩

end Logger

end LogPipeline
