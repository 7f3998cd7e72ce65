/-
A set of managed outputs whose sinks never fail does not show how events
are cut into batches (`AppenderSet.serveOut_alike`). The end of a batch
decides which calls an output gets and what the calls do: an output that
denies the last event is flushed, one that cannot format it is flushed as
well, and a write is followed by a flush. So two runs over the same events
with other batches go through buffers that have nothing to do with each
other.

# By way of streams

On the streams of `Registry.streams` none of this is there: a flush does
nothing, so the end of a batch does nothing either (`Streams.serve_blind`).
That managed outputs agree with their streams (`agree_streams`) carries it
back, results included. It says nothing yet of where the bytes are.

# Where the bytes are

What is in a sink is the stream less what is buffered. A set changes the
buffers of the outlets that its members write to, and of those only while
they are open (`Registry.Disturbs`); when it is stopped, it flushes every
one of them before it lets go of it. So what is left in the buffers is
settled from the start (`AppenderSet.bufferAt_serveOut`), and as the
streams are the same, the sinks are.
-/
import LogPipeline.Appender.Output
import LogPipeline.Proofs.Appender.Errands
import LogPipeline.Proofs.Output.Streams

namespace LogPipeline

-- ============================================================ blindness

/-- The output looks at events, but not at the ends of batches. -/
structure ManagedOutput.Blind (o : ManagedOutput) : Prop where
  formatter : ∀ e endOfBatch,
    o.formatter.bytes e endOfBatch = o.formatter.bytes e.unflagged false
  filter : ∀ chain ∈ o.filter, ∀ e,
    FilterChain.ask (.event e) chain = FilterChain.ask (.event e.unflagged) chain

namespace Filter

mutual

/-- No filter of an application's own in the tree looks at the ends of
batches. -/
def Blind : Filter → Prop
  | threshold .. | marker .. => True
  | chain members => BlindAll members

def BlindMember : FilterMember → Prop
  | .builtin f => Blind f
  | .custom judge => ∀ e : EventSlot, judge (.event e) = judge (.event e.unflagged)

def BlindAll : List FilterMember → Prop
  | [] => True
  | f :: fs => BlindMember f ∧ BlindAll fs

end

mutual

/-- A blind filter gives the same answer with the mark of the batch and
without. -/
theorem ask_blind (e : EventSlot) : ∀ f : Filter, f.Blind →
    f.ask (.event e) = f.ask (.event e.unflagged)
  | threshold .., _ => rfl
  | marker .., _ => rfl
  | chain members, h => askAll_blind e members h

theorem askMember_blind (e : EventSlot) : ∀ f : FilterMember, BlindMember f →
    askMember (.event e) f = askMember (.event e.unflagged) f
  | .builtin f, h => ask_blind e f h
  | .custom _, h => h e

theorem askAll_blind (e : EventSlot) : ∀ fs : List FilterMember, BlindAll fs →
    askAll (.event e) fs = askAll (.event e.unflagged) fs
  | [], _ => rfl
  | f :: fs, h => by
      unfold askAll
      rw [askMember_blind e f h.1, askAll_blind e fs h.2]

end

end Filter

/-- Only what an application brings can look at the ends of batches. -/
theorem ManagedOutput.blind_of_custom {o : ManagedOutput}
    (hformatter : ∀ g, o.formatter = .custom g → ∀ e endOfBatch,
      g e endOfBatch = g e.unflagged false)
    (hfilter : ∀ chain ∈ o.filter, Filter.BlindAll chain) : o.Blind where
  formatter e endOfBatch := by
    unfold Formatter.bytes Formatter.format
    cases hf : o.formatter with
    | line f => rfl
    | record timestamp => rfl
    | custom g =>
        unfold Formatter.append
        dsimp only
        rw [hformatter g hf e endOfBatch]
  filter chain hchain e := Filter.askAll_blind e chain (hfilter chain hchain)

-- ========================================================== on streams

/-- Managed outputs that act on streams: what they write is there at once,
and there is nothing to flush. -/
def Streams.ops : AppenderOps ManagedOutput Streams where
  name := ManagedOutput.name
  filter := ManagedOutput.filter
  enter _ _ v := v
  isHeld _ _ _ := false
  finish c o v :=
    match c with
    | .append e endOfBatch =>
        match o.formatter.bytes e endOfBatch with
        | .ok bytes =>
            let (result, v) := v.withOutlet o.handle (Stream.write bytes)
            (.ofExcept result, v)
        | .error err => (.failed err, v)
    | .flush | .stop => (.done, v)
  drop o v := ([], v.release o.handle)

section

variable {W : Type} {log : Nat → W → List Attempt}

/-- On sinks that never fail, managed outputs do what they do on streams. -/
theorem ManagedOutput.agree_streams (log : Nat → W → List Attempt) :
    (ManagedOutput.ops (W := W)).Agree Streams.ops
      fun r v => r.Filed log ∧ v = r.streams log where
  name _ := rfl
  filter _ := rfl
  call c o r v := by
    rintro ⟨hr, rfl⟩
    obtain ⟨hflushed, hok, hunseen⟩ := Registry.streams_flush hr o.handle
    have hflush : Outcome.done = .ofExcept (r.flush o.handle).1
        ∧ (r.flush o.handle).2.Filed log
        ∧ r.streams log = (r.flush o.handle).2.streams log := by
      rw [hok]
      exact ⟨rfl, hflushed, hunseen.symm⟩
    cases c with
    | append e endOfBatch =>
        show (Streams.ops.finish (.append e endOfBatch) o (r.streams log)).1
            = .ofExcept (o.append e endOfBatch r).1
          ∧ (o.append e endOfBatch r).2.Filed log
          ∧ (Streams.ops.finish (.append e endOfBatch) o (r.streams log)).2
            = (o.append e endOfBatch r).2.streams log
        unfold Streams.ops ManagedOutput.append
        dsimp only
        cases o.formatter.bytes e endOfBatch with
        | ok bytes =>
            obtain ⟨hwritten, hwrite⟩ := Registry.streams_write hr o.handle bytes endOfBatch
            dsimp only
            rw [hwrite]
            exact ⟨rfl, hwritten, rfl⟩
        | error err =>
            cases endOfBatch with
            | false => exact ⟨rfl, hr, rfl⟩
            | true =>
                -- the event is lost, and the batch ends all the same
                simp only [if_true]
                rw [hok]
                exact ⟨rfl, hflushed, hunseen.symm⟩
    | flush | stop => exact hflush
  drop o r v := by
    rintro ⟨hr, rfl⟩
    obtain ⟨hfiled, hreports, hstreams⟩ := Registry.streams_release hr o.handle
    exact ⟨hreports.symm, hfiled, hstreams.symm⟩

end

namespace Streams

variable {o : ManagedOutput}

/-- A blind output denies an event whether it ends a batch or not. -/
theorem denies_blind (ho : o.Blind) (e : EventSlot) :
    ops.denies o e = ops.denies o e.unflagged := by
  have hfilter := ho.filter
  unfold AppenderOps.denies
  show o.filter.any _ = o.filter.any _
  cases hf : o.filter with
  | none => rfl
  | some chain =>
      show (chain.ask _ == _) = (chain.ask _ == _)
      rw [hfilter chain hf e]

/-- On streams the end of a batch makes no difference to an output that does
not look at it. -/
theorem visit_blind (ho : o.Blind) (e : EventSlot) (endOfBatch : Bool) (t : Tally)
    (v : Streams) :
    (Errand.deliver e endOfBatch).visit ops o t v
      = (Errand.deliver e.unflagged false).visit ops o t v := by
  have hdenies := denies_blind ho e
  cases hd : ops.denies o e with
  | true =>
      rw [hd] at hdenies
      have hpassed : (Errand.deliver e.unflagged false).callOn ops o = none := by
        simp [Errand.callOn, ← hdenies]
      rw [Errand.visit_none hpassed]
      cases endOfBatch with
      | false => exact Errand.visit_none (by simp [Errand.callOn, hd]) t v
      | true =>
          -- the output is flushed instead, which is nothing on streams
          have hflushed : (Errand.deliver e true).callOn ops o = some .flush := by
            simp [Errand.callOn, hd]
          rw [Errand.visit_some hflushed]
          rfl
  | false =>
      rw [hd] at hdenies
      have hcall : ∀ b, (Errand.deliver e b).callOn ops o = some (.append e b) := by
        intro b
        simp [Errand.callOn, hd]
      have hcall' : (Errand.deliver e.unflagged false).callOn ops o
          = some (.append e.unflagged false) := by simp [Errand.callOn, ← hdenies]
      have hsame : ops.call (.append e endOfBatch) o v
          = ops.call (.append e.unflagged false) o v := by
        unfold AppenderOps.call ops
        dsimp only
        rw [ho.formatter e endOfBatch]
      rw [Errand.visit_some (hcall endOfBatch), Errand.visit_some hcall', hsame]
      cases (ops.call (.append e.unflagged false) o v).1 <;> rfl

/-- Blind outputs are visited alike with the mark and without. -/
theorem visitAll_blind {members : List ManagedOutput} (hm : ∀ o ∈ members, o.Blind)
    (e : EventSlot) (endOfBatch : Bool) (t : Tally) (v : Streams) :
    (Errand.deliver e endOfBatch).visitAll ops members t v
      = (Errand.deliver e.unflagged false).visitAll ops members t v := by
  induction members generalizing t v with
  | nil => rfl
  | cons o rest ih =>
      rw [Errand.visitAll_cons, Errand.visitAll_cons,
        visit_blind (hm o List.mem_cons_self)]
      dsimp only
      rw [ih fun b hb => hm b (List.mem_cons_of_mem _ hb)]

/-- A flush of a set is nothing on streams. -/
theorem visitAll_flush (members : List ManagedOutput) (t : Tally) (v : Streams) :
    Errand.flush.visitAll ops members t v = (t, [], v) := by
  induction members generalizing t v with
  | nil => rfl
  | cons o rest ih =>
      rw [Errand.visitAll_cons, Errand.visit_some (c := .flush) rfl]
      exact congrArg (fun x => (x.1, _ ++ x.2.1, x.2.2)) (ih _ _)

variable {set : AppenderSet ManagedOutput}

/-- What a set does on streams depends on the events alone. -/
theorem serve_blind (hset : ∀ o ∈ set.members, o.Blind) (calls : List SetCall) (v : Streams) :
    set.serve ops calls v
      = set.serve ops ((SetCall.events calls).map fun e => .deliver e false) v := by
  induction calls generalizing v with
  | nil => rfl
  | cons c rest ih =>
      cases c with
      | deliver e endOfBatch =>
          have hrun : set.run ops (.deliver e endOfBatch) v
              = set.run ops (.deliver e.unflagged false) v := by
            unfold AppenderSet.run
            rw [visitAll_blind hset]
            rfl
          have hevents : SetCall.events (.deliver e endOfBatch :: rest)
              = e.unflagged :: SetCall.events rest := rfl
          rw [hevents, List.map_cons, AppenderSet.serve_cons, AppenderSet.serve_cons]
          dsimp only [SetCall.errand]
          rw [hrun, ih]
          rfl
      | flush =>
          have hrun : set.run ops .flush v = ⟨.ok (), [], v⟩ := by
            unfold AppenderSet.run
            rw [visitAll_flush]
            rfl
          have hevents : SetCall.events (.flush :: rest) = SetCall.events rest := rfl
          rw [hevents, AppenderSet.serve_cons]
          dsimp only [SetCall.errand]
          rw [hrun]
          exact ih v

/-- So two sequences of calls with the same events come to the same. -/
theorem serveOut_blind (hset : ∀ o ∈ set.members, o.Blind) {as bs : List SetCall}
    (h : SetCall.events as = SetCall.events bs) (v : Streams) :
    set.serveOut ops as v = set.serveOut ops bs v := by
  unfold AppenderSet.serveOut
  rw [serve_blind hset as, serve_blind hset bs, h]

end Streams

-- ============================================================ buffers

/-- The outlets that the members write to. -/
def AppenderSet.outlets (set : AppenderSet ManagedOutput) : List Nat :=
  set.members.map (·.handle.outlet)

variable {W : Type}

/-- No manager was closed, and no buffer has changed but of these outlets,
where they are open. -/
structure Registry.Disturbs (touched : List Nat) (r₀ r : Registry W) : Prop where
  openAt : ∀ i, r.openAt i = r₀.openAt i
  bufferAt : ∀ i, r.bufferAt i = r₀.bufferAt i ∨ i ∈ touched ∧ r₀.openAt i = true

/-- What is buffered once the managers of these outlets were flushed. -/
def Registry.settledAt (touched : List Nat) (r : Registry W) (i : Nat) : Option ByteArray :=
  if i ∈ touched ∧ r.openAt i = true then some .empty else r.bufferAt i

section

variable {touched : List Nat} {r₀ r : Registry W}

theorem Registry.Disturbs.refl (touched : List Nat) (r : Registry W) :
    Disturbs touched r r := ⟨fun _ => rfl, fun _ => .inl rfl⟩

/-- An operation on one of these outlets disturbs no other. -/
theorem Registry.Disturbs.withOutlet (hr : Disturbs touched r₀ r) {h : ManagerHandle}
    (ht : h.outlet ∈ touched) {op : Sink W → Manager → W → Manager.Step W}
    {act : Stream → Except LogError Unit × Stream} (ha : Manager.ActsAs op act)
    (hop : ∀ k m w, (op k m w).2.1.closed = m.closed) :
    Disturbs touched r₀ (r.withOutlet h op).2 where
  openAt i := (openAt_withOutlet r h hop i).trans (hr.openAt i)
  bufferAt i := by
    by_cases hi : i = h.outlet ∧ r₀.openAt i = true
    · exact .inr ⟨hi.1 ▸ ht, hi.2⟩
    · rw [bufferAt_withOutlet r h ha fun heq => ?_]
      · exact hr.bufferAt i
      · rw [hr.openAt]
        exact Bool.eq_false_iff.2 fun hopen => hi ⟨heq, hopen⟩

/-- A call of an output disturbs its own outlet at most. -/
theorem ManagedOutput.disturbs_call (hr : Registry.Disturbs touched r₀ r) (c : AppenderCall)
    {o : ManagedOutput} (ht : o.handle.outlet ∈ touched) :
    Registry.Disturbs touched r₀ (ManagedOutput.ops.call c o r).2 := by
  have hflushed : Registry.Disturbs touched r₀ (r.flush o.handle).2 :=
    hr.withOutlet ht Manager.actsAs_flush Manager.closed_flush
  cases c with
  | append e endOfBatch =>
      show Registry.Disturbs touched r₀ (o.append e endOfBatch r).2
      unfold ManagedOutput.append
      split
      · next bytes _ =>
        exact hr.withOutlet ht (Manager.actsAs_write bytes endOfBatch)
          fun k m w => Manager.closed_write k bytes endOfBatch m w
      · split
        · exact hflushed
        · exact hr
  | flush | stop => exact hflushed

theorem AppenderSet.disturbs_serve {set : AppenderSet ManagedOutput} (calls : List SetCall)
    (hr : Registry.Disturbs set.outlets r₀ r) :
    Registry.Disturbs set.outlets r₀ (set.serve ManagedOutput.ops calls r).state := by
  induction calls generalizing r with
  | nil => exact hr
  | cons c rest ih =>
      refine ih (Errand.visitAll_keeps (P := Registry.Disturbs set.outlets r₀)
        (fun o ho t r hr => ?_) _ hr)
      have ht : o.handle.outlet ∈ set.outlets := List.mem_map_of_mem ho
      cases hc : c.errand.callOn ManagedOutput.ops o with
      | none =>
          rw [Errand.visit_none hc]
          exact hr
      | some call =>
          rw [Errand.visit_some hc]
          have hcalled := ManagedOutput.disturbs_call hr call ht
          cases c with
          | deliver e endOfBatch => exact hcalled
          | flush => exact hcalled

/-- Stopping settles the buffers: of the open managers that members write to
nothing is left in the buffer, and the others stay as they are. -/
theorem Errand.settled_stop (settled : Nat → Option ByteArray) {members : List ManagedOutput}
    (hm : ∀ o ∈ members, r₀.openAt o.handle.outlet = true →
      settled o.handle.outlet = some .empty)
    (hopen : ∀ i, r.openAt i = true → r₀.openAt i = true)
    (h : ∀ i, r.bufferAt i = settled i
      ∨ i ∈ members.map (·.handle.outlet) ∧ r.openAt i = true) (t : Tally) (i : Nat) :
    (Errand.stop.visitAll ManagedOutput.ops members t r).2.2.bufferAt i = settled i := by
  induction members generalizing t r with
  | nil =>
      rcases h i with heq | ⟨hmem, -⟩
      · exact heq
      · cases hmem
  | cons o rest ih =>
      rw [visitAll_cons, visit_some (c := .stop) rfl]
      dsimp only
      obtain ⟨r₁, hr₁⟩ : ∃ r₁, r₁ = (r.flush o.handle).2 := ⟨_, rfl⟩
      have hopen₁ : ∀ j, r₁.openAt j = r.openAt j := by
        intro j
        rw [hr₁]
        exact Registry.openAt_withOutlet r o.handle Manager.closed_flush j
      have hrelease := fun j => Registry.openAt_release (r := r₁) o.handle j
      show (Errand.stop.visitAll ManagedOutput.ops rest _ ((Registry.flush r o.handle).2.release
        o.handle).2).2.2.bufferAt i = settled i
      rw [← hr₁]
      refine ih (fun b hb => hm b (List.mem_cons_of_mem _ hb))
        (fun j hj => hopen j ((hopen₁ j).symm.trans ((hrelease j).2 hj))) (fun j => ?_) _
      by_cases hj : j = o.handle.outlet
      · -- the member's own outlet: it is flushed now, or was closed before
        left
        subst hj
        cases hopened : r.openAt o.handle.outlet with
        | true =>
            have hempty : r₁.bufferAt o.handle.outlet = some .empty := by
              rw [hr₁]
              exact Registry.bufferAt_pushed o.handle
                (fun k m w hc => Manager.buffer_flush k w hc) hopened
            rw [Registry.bufferAt_release o.handle fun _ _ => hempty, hempty]
            exact (hm o List.mem_cons_self (hopen _ hopened)).symm
        | false =>
            have hsame : r₁.bufferAt o.handle.outlet = r.bufferAt o.handle.outlet := by
              rw [hr₁]
              exact Registry.bufferAt_withOutlet r o.handle Manager.actsAs_flush
                fun _ => hopened
            have hclosed : r₁.openAt o.handle.outlet ≠ true := by
              rw [hopen₁, hopened]
              exact Bool.false_ne_true
            rw [Registry.bufferAt_release o.handle fun _ hopened' => absurd hopened' hclosed,
              hsame]
            rcases h o.handle.outlet with heq | ⟨-, hopened'⟩
            · exact heq
            · rw [hopened] at hopened'
              cases hopened'
      -- another outlet is not touched: its turn has come, or is to come
      · have hsame : (r₁.release o.handle).2.bufferAt j = r.bufferAt j := by
          rw [Registry.bufferAt_release o.handle fun heq => absurd heq hj, hr₁]
          exact Registry.bufferAt_withOutlet r o.handle Manager.actsAs_flush
            fun heq => absurd heq hj
        rw [hsame, (hrelease j).1 hj, hopen₁]
        rcases h j with heq | ⟨hmem, hopened⟩
        · exact .inl heq
        · exact .inr ⟨(List.mem_cons.1 hmem).resolve_left hj, hopened⟩

/-- Once a set is stopped, what is buffered depends on nothing it was asked
to do. -/
theorem AppenderSet.bufferAt_serveOut (set : AppenderSet ManagedOutput)
    (calls : List SetCall) (r : Registry W) (i : Nat) :
    (set.serveOut ManagedOutput.ops calls r).state.bufferAt i
      = r.settledAt set.outlets i := by
  have hserved := disturbs_serve calls (Registry.Disturbs.refl set.outlets r)
  exact Errand.settled_stop (r.settledAt set.outlets)
    (fun o ho hopen => if_pos ⟨List.mem_map_of_mem ho, hopen⟩)
    (fun j hj => (hserved.openAt j).symm.trans hj) (fun j => by
      unfold Registry.settledAt
      rw [hserved.openAt]
      by_cases hj : j ∈ set.outlets ∧ r.openAt j = true
      · exact .inr hj
      · rw [if_neg hj]
        exact .inl ((hserved.bufferAt j).resolve_right hj)) .clean i

variable {log : Nat → W → List Attempt}

/-- Two sequences of calls with the same events, delivered in whatever
batches, give the same results and leave the same in every sink. -/
theorem AppenderSet.serveOut_alike {set : AppenderSet ManagedOutput} {r : Registry W}
    (hr : r.Filed log) (hset : ∀ o ∈ set.members, o.Blind) {as bs : List SetCall}
    (h : SetCall.events as = SetCall.events bs) :
    (set.serveOut ManagedOutput.ops as r).results
        = (set.serveOut ManagedOutput.ops bs r).results
      ∧ (set.serveOut ManagedOutput.ops as r).reports
        = (set.serveOut ManagedOutput.ops bs r).reports
      ∧ ∀ i, (set.serveOut ManagedOutput.ops as r).state.takenAt log i
        = (set.serveOut ManagedOutput.ops bs r).state.takenAt log i := by
  have hagree := ManagedOutput.agree_streams (W := W) log
  obtain ⟨hresults, hreports, -, hstreams⟩ := hagree.serveOut set as ⟨hr, rfl⟩
  obtain ⟨hresults', hreports', -, hstreams'⟩ := hagree.serveOut set bs ⟨hr, rfl⟩
  rw [Streams.serveOut_blind hset h] at hresults hreports hstreams
  refine ⟨hresults.symm.trans hresults', hreports.symm.trans hreports', fun i => ?_⟩
  refine Registry.takenAt_eq (hstreams.symm.trans hstreams') ?_
  rw [bufferAt_serveOut, bufferAt_serveOut]

end

-- ============================================================ oversight

/-- Overseeing the sinks changes nothing for managed outputs. -/
theorem ManagedOutput.agree_mirrors {V : Type} (part : V → W) :
    (ManagedOutput.ops (W := W)).Agree (ManagedOutput.ops (W := V))
      fun r r' => r'.Mirrors part r where
  name _ := rfl
  filter _ := rfl
  call c o r r' hr := by
    obtain ⟨hresult, hflushed⟩ := hr.withOutlet o.handle fun k' k hk m v =>
      Manager.flush_mirrored hk m v
    have hflush : Outcome.ofExcept (r'.flush o.handle).1 = .ofExcept (r.flush o.handle).1
        ∧ (r'.flush o.handle).2.Mirrors part (r.flush o.handle).2 :=
      ⟨congrArg Outcome.ofExcept hresult, hflushed⟩
    cases c with
    | append e endOfBatch =>
        show Outcome.ofExcept (o.append e endOfBatch r').1
            = .ofExcept (o.append e endOfBatch r).1
          ∧ (o.append e endOfBatch r').2.Mirrors part (o.append e endOfBatch r).2
        unfold ManagedOutput.append
        cases o.formatter.bytes e endOfBatch with
        | ok bytes =>
            obtain ⟨hresult, hwritten⟩ := hr.withOutlet o.handle fun k' k hk m v =>
              Manager.write_mirrored hk bytes endOfBatch m v
            exact ⟨congrArg Outcome.ofExcept hresult, hwritten⟩
        | error err =>
            cases endOfBatch with
            | false => exact ⟨rfl, hr⟩
            | true =>
                exact ⟨congrArg (fun x => Outcome.ofExcept (firstError x (.error err))) hresult,
                  hflushed⟩
    | flush | stop => exact hflush
  drop o r r' hr := hr.release o.handle

end LogPipeline
