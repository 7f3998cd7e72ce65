/-
What appenders hold, and that all of it comes back. `AppenderOps.Lends`
says of a kind of appenders that no call changes what they hold, and that
a member that is dropped gives its part back; the library's own appenders
hold handles on managers in this way (`MixedAppender.lends`).

Who still holds something can be read off the record: all that have not
been dropped (`Ledger`). No call and no drop puts the ledger wrong
(`Lends.stable`), so no errand does, and no step of a dispatcher
(`Stable.step`); with the last of the members dropped there is nothing
left that anybody holds (`Ledger.closed`).
-/
import LogPipeline.Appender.Mixed
import LogPipeline.Proofs.Appender.Careers
import LogPipeline.Proofs.Output.Borrowing

namespace LogPipeline

variable {α S : Type} {ops : AppenderOps α S}

-- ============================================================= stability

/-- Nothing that is done to an appender disturbs this. -/
structure AppenderOps.Stable (ops : AppenderOps α S) (I : S → Prop) : Prop where
  enter : ∀ c a s, I s → I (ops.enter c a s)
  finish : ∀ c a s, I s → I (ops.finish c a s).2
  drop : ∀ a s, I s → I (ops.drop a s).2

namespace AppenderOps.Stable

variable {I : S → Prop} {s : S}

/-- What is not disturbed in one call is not disturbed by what an errand does
on a member. -/
theorem conclude (h : ops.Stable I) (errand : Errand) (c : AppenderCall) (a : α) (t : Tally)
    (hs : I s) : I (errand.conclude ops c a t s).2.2 := by
  have hfinished := h.finish c a s hs
  cases errand with
  | deliver e endOfBatch | flush => exact hfinished
  | stop => exact h.drop a _ hfinished

/-- Nor by a whole errand of a set. -/
theorem run (h : ops.Stable I) (errand : Errand) (set : AppenderSet α) (hs : I s) :
    I (set.run ops errand s).state := by
  refine Errand.visitAll_keeps (P := I) (fun a _ t s hs => ?_) .clean hs
  unfold Errand.visit
  split
  · exact hs
  · exact h.conclude errand _ a t (h.enter _ a s hs)

theorem advance (h : ops.Stable I) (errand : Errand) (size : Nat) (members : List α) (t : Tally)
    (hs : I s) : I (Crew.advance ops errand size members t s).2.2 := by
  induction members generalizing t s with
  | nil => exact hs
  | cons a rest ih =>
      unfold Crew.advance
      split
      · exact ih t hs
      · next c _ =>
        have hentered := h.enter c a s hs
        dsimp only
        split
        · exact hentered
        · exact ih _ (h.conclude errand c a t hentered)

theorem resume (h : ops.Stable I) {c : Crew α S} {x : Call (Crew α S)}
    (hx : Crew.resume ops c = some x) (hc : I c.world) : I x.state.world := by
  unfold Crew.resume at hx
  split at hx
  · cases hx
  · next r _ =>
    split at hx
    · cases hx
    · rw [← Option.some.inj hx, (Crew.told_progress ops _ _ _ _).2.1]
      exact h.advance r.errand r.size r.rest _ (h.conclude r.errand r.call r.member r.tally hc)

theorem answer (h : ops.Stable I) (task : Task) {c : Crew α S} (hc : I c.world) :
    I ((Crew.handler ops).answer task c).state.world := by
  rw [Crew.answer_eq, Crew.begin, (Crew.told_progress ops _ _ _ _).2.1]
  exact h.advance _ _ _ _ hc

/-- What no call disturbs, no step of a dispatcher disturbs. -/
theorem step (h : ops.Stable I) {d d' : Dispatcher} {s s' : Shared (Crew α S)}
    (hs : d.step (Crew.handler ops) s = some (d', s')) (hI : I s.handler.world) :
    I s'.handler.world := by
  cases hheld : d.phase.isHeld with
  | true =>
      obtain ⟨x, hx, heq⟩ := Dispatcher.handler_step_held hheld hs
      rw [heq]
      exact h.resume hx hI
  | false =>
      rcases Dispatcher.handler_step hheld hs with heq | ⟨task, heq⟩
      · rw [heq]
        exact hI
      · rw [heq]
        exact h.answer task hI

end AppenderOps.Stable

-- =============================================================== lending

/-- Appenders hold what they were lent, as `B` tells of those that hold
something and the state they act on. No call changes it, and whoever is
dropped gives back what is its own. -/
structure AppenderOps.Lends (ops : AppenderOps α S) (B : List α → S → Prop) : Prop where
  perm : ∀ {as bs : List α} {s : S}, as.Perm bs → B as s → B bs s
  enter : ∀ {as : List α} (c : AppenderCall) (a : α) {s : S}, B as s → B as (ops.enter c a s)
  finish : ∀ {as : List α} (c : AppenderCall) (a : α) {s : S}, B as s → B as (ops.finish c a s).2
  drop : ∀ {a : α} {as : List α} {s : S}, B (a :: as) s → B as (ops.drop a s).2

/-- The one that is dropped. -/
def Act.droppedBy? : α × Act → Option α
  | (a, .dropped) => some a
  | _ => none

/-- Those that were dropped, in order. -/
def droppedIn (acts : List (α × Act)) : List α := acts.filterMap Act.droppedBy?

/-- All of the members that were not dropped hold what they were lent. -/
def Ledger (B : List α → S → Prop) (members : List α) (r : Recorded α S) : Prop :=
  ∀ as : List α, (droppedIn r.acts ++ as).Perm members → B as r.state

theorem droppedIn_write (d : Deed α) (r : Recorded α S) :
    droppedIn (r.write d).acts = droppedIn r.acts ++ (Act.droppedBy? d.act).toList := by
  unfold droppedIn
  rw [Recorded.acts_write, List.filterMap_append]
  cases h : Act.droppedBy? d.act <;> simp [h]

/-- The ledger is right, whatever happens. -/
theorem AppenderOps.Lends.stable {B : List α → S → Prop} (h : ops.Lends B) (members : List α) :
    ops.recorded.Stable (Ledger B members) where
  enter c a r hr as has := by
    have hsame : droppedIn (ops.recorded.enter c a r).acts = droppedIn r.acts :=
      (droppedIn_write _ _).trans (List.append_nil _)
    rw [hsame] at has
    exact h.enter c a (hr as has)
  finish c a r hr as has := by
    have hsame : droppedIn (ops.recorded.finish c a r).2.acts = droppedIn r.acts :=
      (droppedIn_write _ _).trans (List.append_nil _)
    rw [hsame] at has
    exact h.finish c a (hr as has)
  drop a r hr as has := by
    have hone : droppedIn (ops.recorded.drop a r).2.acts = droppedIn r.acts ++ [a] :=
      droppedIn_write _ _
    rw [hone, List.append_assoc] at has
    exact h.drop (hr (a :: as) has)

/-- Deliveries and flushes drop nobody. -/
theorem droppedIn_calls (ops : AppenderOps α S) (members : List α) (calls : List SetCall) :
    droppedIn (calls.flatMap fun c => members.flatMap (c.errand.actsOn ops)) = [] := by
  refine List.filterMap_eq_nil_iff.2 fun x hx => ?_
  obtain ⟨c, -, hx⟩ := List.mem_flatMap.1 hx
  obtain ⟨a, -, hx⟩ := List.mem_flatMap.1 hx
  unfold Errand.actsOn at hx
  split at hx
  · cases hx
  · cases c with
    | deliver e endOfBatch | flush =>
        rcases List.mem_cons.1 hx with rfl | hx
        · rfl
        · rw [List.mem_singleton.1 hx]
          rfl

/-- Stopping drops the members in their order, each of them once. -/
theorem droppedIn_stops (ops : AppenderOps α S) (members : List α) :
    droppedIn (members.flatMap (Errand.stop.actsOn ops)) = members := by
  induction members with
  | nil => rfl
  | cons a rest ih =>
      unfold droppedIn at ih ⊢
      rw [List.flatMap_cons, List.filterMap_append, ih]
      rfl

/-- When every member has been stopped, nobody holds anything. -/
theorem Ledger.closed {B : List α → S → Prop} {members : List α} {r : Recorded α S}
    (h : Ledger B members r) {calls : List SetCall}
    (hacts : r.acts = calls.flatMap (fun c => members.flatMap (c.errand.actsOn ops))
      ++ members.flatMap (Errand.stop.actsOn ops)) : B [] r.state := by
  refine h [] ?_
  have hdropped : droppedIn r.acts = members := by
    have hcalls := droppedIn_calls ops members calls
    have hstops := droppedIn_stops ops members
    unfold droppedIn at hcalls hstops ⊢
    rw [hacts, List.filterMap_append, hcalls, hstops, List.nil_append]
  rw [hdropped, List.append_nil]

-- =============================================================== handles

open Registry (Borrowed)

/-- A managed output only uses its handle. -/
theorem ManagedOutput.borrowed_answer {W : Type} {r₀ r : Registry W} {taken : List ManagerHandle}
    (hb : Borrowed r₀ taken r) (c : AppenderCall) (o : ManagedOutput) :
    Borrowed r₀ taken (o.answer c r).2 := by
  cases c with
  | append e endOfBatch =>
      show Borrowed r₀ taken (o.append e endOfBatch r).2
      unfold append
      split
      · exact hb.write o.handle _ endOfBatch
      · split
        · exact hb.flush o.handle
        · exact hb
  | flush | stop => exact hb.flush o.handle

namespace MixedAppender

variable {C K : Type}

/-- The handle that an appender of the library holds. -/
def handle? : MixedAppender C → Option ManagerHandle
  | managed a => some a.output.handle
  | custom _ => none

/-- The library's appenders hold their handles, among any others. Whoever is
dropped releases its own. -/
theorem lends (custom : AppenderOps C K) (r₀ : Registry Devices) :
    (MixedAppender.ops custom).Lends fun as host =>
      Borrowed r₀ (as.filterMap handle?) host.registry where
  perm hp hb := hb.perm (hp.filterMap handle?)
  enter c a s hb := by
    cases a <;> exact hb
  finish c a s hb := by
    cases a with
    | managed a => exact ManagedOutput.borrowed_answer hb c a.output
    | custom _ => exact hb
  drop {a _ _} hb := by
    cases a with
    | managed a => exact hb.release
    | custom _ => exact hb

end MixedAppender

end LogPipeline
