/-
Which calls a sink gets, and which factories are asked for a manager. Each
acquisition has a number; `ManagerFactory.traced` notes under its number
that the factory was asked, and has the sink that it makes note its calls
under the same number. So what is noted under a number tells what became
of the manager that was made for that acquisition.

A manager's operation gives its sink the calls that `Manager.pending`
says: to push is to write what is buffered, if anything, and to flush
(`calls_push`), to close is to push and to close (`calls_close`), and
nothing else closes (`gentle_write`, `gentle_flush`). Nothing is noted
under another number (`Sink.quiet_traced`). Registries that are traced do
what they do otherwise (`Registry.Mirrors.acquire`).
-/
import LogPipeline.Proofs.Output.Streams

namespace LogPipeline

-- ======================================================== calls of sinks

/-- A call that a sink gets. -/
inductive SinkCall where
  | write (bytes : ByteArray)
  | flush
  | close

/-- A world, and what was noted in it. -/
structure Traced (W : Type) where
  world : W
  /-- The acquisitions whose factories were asked, in order. -/
  asked : List Nat
  /-- The calls of the sinks, by the acquisition that made the sink. -/
  calls : Nat → List SinkCall

namespace Traced

variable {W : Type}

/-- A world in which nothing has been noted yet. -/
def start (w : W) : Traced W := ⟨w, [], fun _ => []⟩

/-- A sink that was made for acquisition `n` was called. -/
def called (n : Nat) (c : SinkCall) (world : W) (t : Traced W) : Traced W :=
  { t with world := world, calls := fun j => if j = n then t.calls j ++ [c] else t.calls j }

@[simp] theorem calls_called_self (n : Nat) (c : SinkCall) (world : W) (t : Traced W) :
    (t.called n c world).calls n = t.calls n ++ [c] := if_pos rfl

theorem calls_called_of_ne {n j : Nat} (h : j ≠ n) (c : SinkCall) (world : W) (t : Traced W) :
    (t.called n c world).calls j = t.calls j := if_neg h

end Traced

/-- The sink that was made for acquisition `n`, with a note of every call. -/
def Sink.traced {W : Type} (n : Nat) (k : Sink W) : Sink (Traced W) where
  write bytes t :=
    let (result, world) := k.write bytes t.world
    (result, t.called n (.write bytes) world)
  flush t :=
    let (result, world) := k.flush t.world
    (result, t.called n .flush world)
  close t :=
    let (result, world) := k.close t.world
    (result, t.called n .close world)
  contentFormat := k.contentFormat

/-- The factory of acquisition `n`: that it is asked is noted, and the sink
that it makes is traced. -/
def ManagerFactory.traced {W : Type} (n : Nat) (f : ManagerFactory W) :
    ManagerFactory (Traced W) := fun name t =>
  let (made, world) := f name t.world
  (made.map fun o => ⟨o.manager, o.sink.traced n⟩,
    { t with world := world, asked := t.asked ++ [n] })

namespace Sink

variable {W : Type} (n : Nat) (k : Sink W)

/-- Being traced changes nothing of what a sink does. -/
theorem mirrors_traced : (k.traced n).Mirrors Traced.world k :=
  ⟨fun _ _ => rfl, fun _ => rfl, fun _ => rfl⟩

/-- A traced sink notes nothing about factories, or under other numbers. -/
theorem quiet_traced {j : Nat} (hj : j ≠ n) (asked : List Nat) (calls : List SinkCall) :
    (k.traced n).Keeps fun t => t.asked = asked ∧ t.calls j = calls where
  write _ _ h := ⟨h.1, (Traced.calls_called_of_ne hj _ _ _).trans h.2⟩
  flush _ h := ⟨h.1, (Traced.calls_called_of_ne hj _ _ _).trans h.2⟩
  close _ h := ⟨h.1, (Traced.calls_called_of_ne hj _ _ _).trans h.2⟩

end Sink

-- ================================================== calls of operations

namespace Manager

variable {W : Type} {n : Nat} {k : Sink W}

/-- The call that hands on what is buffered, if there is anything. -/
def pending (m : Manager) : List SinkCall :=
  if m.buffer.isEmpty then [] else [.write m.buffer]

/-- To emit bytes is one write of the sink. -/
theorem calls_emit (bytes : ByteArray) (m : Manager) (t : Traced W) :
    (emit (k.traced n) bytes m t).2.2.calls n = t.calls n ++ [.write bytes] := by
  unfold emit
  rcases hw : (k.traced n).write bytes t with ⟨result, t'⟩
  have ht' : t' = ((k.traced n).write bytes t).2 := by rw [hw]
  have hcalls : t'.calls n = t.calls n ++ [.write bytes] := by
    rw [ht']
    exact Traced.calls_called_self n _ _ t
  cases result <;> exact hcalls

/-- To drain the buffer is to write what is pending, if there is anything. -/
theorem calls_drainBuffer (m : Manager) (t : Traced W) :
    (drainBuffer (k.traced n) m t).2.2.calls n = t.calls n ++ m.pending := by
  unfold drainBuffer pending
  split
  · exact (List.append_nil _).symm
  · exact calls_emit _ _ t

/-- To push is to write what is buffered and to flush. -/
theorem calls_push (m : Manager) (t : Traced W) :
    (push (k.traced n) m t).2.2.calls n = t.calls n ++ (m.pending ++ [.flush]) := by
  have hdrained := calls_drainBuffer (k := k) (n := n) m t
  unfold push
  show (((k.traced n).flush (drainBuffer (k.traced n) m t).2.2).2).calls n = _
  rw [← List.append_assoc, ← hdrained]
  exact Traced.calls_called_self n _ _ _

/-- Closing an open manager is pushing and closing the sink. -/
theorem calls_close {m : Manager} (hopen : m.closed = false) (t : Traced W) :
    (close (k.traced n) m t).2.2.calls n
      = t.calls n ++ (m.pending ++ [.flush, .close]) := by
  have hpushed := calls_push (k := k) (n := n) { m with closed := true } t
  unfold close
  rw [hopen]
  show (((k.traced n).close (push (k.traced n) { m with closed := true } t).2.2).2).calls n = _
  refine (Traced.calls_called_self n _ _ _).trans ?_
  rw [hpushed, List.append_assoc, List.append_assoc]
  rfl

/-- The operation closes nothing: what it does to a sink is to write and flush. -/
def Gentle (op : Sink (Traced W) → Manager → Traced W → Step (Traced W)) : Prop :=
  ∀ (n : Nat) (k : Sink W) (m : Manager) (t : Traced W),
    .close ∉ t.calls n → .close ∉ (op (k.traced n) m t).2.2.calls n

/-- What is pending never closes the sink. -/
theorem not_mem_pending (m : Manager) : SinkCall.close ∉ m.pending := by
  unfold pending
  split <;> simp

/-- Pushing calls the sink, but does not close it. -/
theorem gentle_push : Gentle (W := W) push := by
  intro n k m t ht hclose
  rw [calls_push] at hclose
  rcases List.mem_append.1 hclose with h | h
  · exact ht h
  · rcases List.mem_append.1 h with h | h
    · exact not_mem_pending m h
    · cases List.mem_singleton.1 h

theorem gentle_flush : Gentle (W := W) flush := by
  intro n k m t ht
  unfold flush
  split
  · exact ht
  · exact gentle_push n k m t ht

/-- A write in any of its cases leaves the sink open. -/
theorem gentle_write (bytes : ByteArray) (endOfBatch : Bool) :
    Gentle (W := W) fun k => write k bytes endOfBatch := by
  intro n k m t ht
  have hroom : SinkCall.close ∉ (makeRoom (k.traced n) bytes m t).2.2.calls n := by
    unfold makeRoom
    split
    · rw [calls_drainBuffer]
      exact fun h => (List.mem_append.1 h).elim ht (not_mem_pending m)
    · exact ht
  have haccept : ∀ (m : Manager) (t : Traced W), SinkCall.close ∉ t.calls n →
      SinkCall.close ∉ (accept (k.traced n) bytes m t).2.2.calls n := by
    intro m t ht
    unfold accept
    split
    · rw [calls_emit]
      exact fun h => (List.mem_append.1 h).elim ht fun h => by cases List.mem_singleton.1 h
    · exact ht
  show SinkCall.close ∉ (write (k.traced n) bytes endOfBatch m t).2.2.calls n
  unfold write
  split
  · exact ht
  · have haccepted := haccept (makeRoom (k.traced n) bytes m t).2.1 _ hroom
    dsimp only
    split
    · exact gentle_push n k _ _ haccepted
    · exact haccepted

/-- What is known of an operation of managers apart from its calls: it keeps
to its sink, does not rename the manager, and does nothing once that is
closed. -/
structure Orderly (op : Sink (Traced W) → Manager → Traced W → Step (Traced W)) : Prop where
  keeps : ∀ {k : Sink (Traced W)} {P : Traced W → Prop}, k.Keeps P →
    ∀ (m : Manager) {t : Traced W}, P t → P (op k m t).2.2
  name_eq : ∀ (k : Sink (Traced W)) (m : Manager) (t : Traced W),
    (op k m t).2.1.name = m.name
  idle : ∀ (k : Sink (Traced W)) {m : Manager} (t : Traced W), m.closed = true →
    (op k m t).2 = (m, t)

-- No operation changes the settings; to say so, `Moves` takes a sink that is watched.

/-- A write keeps to its sink, renames nothing, and is refused once the
manager is closed. -/
theorem orderly_write (bytes : ByteArray) (endOfBatch : Bool) :
    Orderly (W := W) fun k => write k bytes endOfBatch where
  keeps hk m _ ht := keeps_write hk bytes endOfBatch m ht
  name_eq k m t := by
    cases hopen : m.closed with
    | true =>
        unfold write
        rw [if_pos hopen]
    | false =>
        obtain ⟨ps, left, h⟩ := moves_write k.logs_watched bytes endOfBatch ⟨t, []⟩ hopen
          m.joinBytes_buffer
        rw [← write_mirrored k.mirrors_watched bytes endOfBatch m ⟨t, []⟩]
        exact congrArg Prod.fst h.settings
  idle k m t hclosed := by
    unfold write
    rw [if_pos hclosed]

/-- So does a flush, which has nothing to do on a closed manager. -/
theorem orderly_flush : Orderly (W := W) flush where
  keeps hk m _ ht := keeps_flush hk m ht
  name_eq k m t := by
    obtain ⟨ps, left, h⟩ := moves_flush k.logs_watched ⟨t, []⟩ m.joinBytes_buffer
    rw [← flush_mirrored k.mirrors_watched m ⟨t, []⟩]
    exact congrArg Prod.fst h.settings
  idle k m t hclosed := by
    unfold flush
    rw [if_pos hclosed]

/-- And so does a close: a second one calls nothing. -/
theorem orderly_close : Orderly (W := W) close where
  keeps hk m _ ht := keeps_close hk m ht
  name_eq k m t := by
    obtain ⟨ps, left, h⟩ := moves_close k.logs_watched ⟨t, []⟩ m.joinBytes_buffer
    rw [← close_mirrored k.mirrors_watched m ⟨t, []⟩]
    exact congrArg Prod.fst h.settings
  idle k m t hclosed := by
    unfold close
    rw [if_pos hclosed]

end Manager

-- ============================================================ registries

theorem Registry.Mirrors.size_eq {V W : Type} {part : V → W} {r' : Registry V}
    {r : Registry W} (hr : r'.Mirrors part r) : r'.outlets.size = r.outlets.size := by
  have hnone : ∀ i : Nat, r'.outlets.size ≤ i ↔ r.outlets.size ≤ i := by
    intro i
    rw [← Array.getElem?_eq_none_iff, ← Array.getElem?_eq_none_iff,
      ← Option.map_eq_none_iff (f := Outlet.manager), hr.managers i, Option.map_eq_none_iff]
  exact Nat.le_antisymm ((hnone _).2 (Nat.le_refl _)) ((hnone _).1 (Nat.le_refl _))

/-- Acquiring with a traced factory comes to the same. -/
theorem Registry.Mirrors.acquire {W : Type} {r' : Registry (Traced W)} {r : Registry W}
    (hr : r'.Mirrors Traced.world r) (name : String) (n : Nat) (f : ManagerFactory W) :
    (r'.acquire name (f.traced n)).1 = (r.acquire name f).1
      ∧ (r'.acquire name (f.traced n)).2.1 = (r.acquire name f).2.1
      ∧ (r'.acquire name (f.traced n)).2.2.Mirrors Traced.world (r.acquire name f).2.2 := by
  have hworld : r'.world.world = r.world := hr.world_eq
  unfold Registry.acquire
  rw [hr.entries_eq]
  cases r.entries.get? name with
  | some e => exact ⟨rfl, rfl, ⟨hr.managers, hr.sinks, rfl, hr.world_eq⟩⟩
  | none =>
      unfold ManagerFactory.traced
      dsimp only
      rw [hworld]
      rcases f name r.world with ⟨e | o, w⟩
      · exact ⟨rfl, rfl, hr.managers, hr.sinks, rfl, rfl⟩
      · dsimp only [Except.map]
        rw [hr.size_eq]
        refine ⟨rfl, rfl, fun i => ?_, fun i p' p hp' hp => ?_, rfl, rfl⟩
        · show (r'.outlets.push _)[i]?.map _ = (r.outlets.push o)[i]?.map _
          rw [Array.getElem?_push, Array.getElem?_push, hr.size_eq]
          split
          · rfl
          · exact hr.managers i
        · have hp₁ : (r'.outlets.push ⟨o.manager, o.sink.traced n⟩)[i]? = some p' := hp'
          have hp₂ : (r.outlets.push o)[i]? = some p := hp
          rw [Array.getElem?_push, hr.size_eq] at hp₁
          rw [Array.getElem?_push] at hp₂
          split at hp₁
          · next hi =>
            rw [if_pos hi] at hp₂
            cases hp₁
            cases hp₂
            exact o.sink.mirrors_traced n
          · next hi =>
            rw [if_neg hi] at hp₂
            exact hr.sinks i p' p hp₁ hp₂

end LogPipeline
