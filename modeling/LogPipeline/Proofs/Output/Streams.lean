/-
What a registry comes to for those who only ask which bytes go where. A
byte that a manager was given is in its sink or still in its buffer, and
when it goes over is of no concern: the `Stream` of a manager has all its
bytes in order, wherever they are. `Registry.streams` shows every manager
so.

# Sinks that keep apart

`Sink.Files` says of the sink of one outlet that it never fails, that the
world remembers what it was handed, and that it leaves alone what the
world remembers of others. In front of such sinks every operation of a
registry is one on its streams: a write puts its chunk at the end of one
of them, and a flush does nothing at all (`streams_write`,
`streams_flush`, `streams_release`).

# What stays in the buffers

Two registries with the same streams may still differ in how much of them
is buffered, and in nothing else (`takenAt_eq`). An operation changes the
buffer of its own outlet, and only while that is open
(`bufferAt_withOutlet`, `bufferAt_release`).
-/
import LogPipeline.Proofs.Output.Conservation

namespace LogPipeline

-- ===================================================== what is let alone

/-- What the calls of a sink let alone. -/
structure Sink.Keeps {W : Type} (k : Sink W) (P : W → Prop) : Prop where
  write : ∀ bytes w, P w → P (k.write bytes w).2
  flush : ∀ w, P w → P (k.flush w).2
  close : ∀ w, P w → P (k.close w).2

namespace Manager

variable {W : Type} {k : Sink W} {P : W → Prop} {w : W}

/-- What no call of the sink disturbs is not disturbed when bytes are handed
over. -/
theorem keeps_emit (hk : k.Keeps P) (bytes : ByteArray) (m : Manager) (hw : P w) :
    P (emit k bytes m w).2.2 := by
  have := hk.write bytes w hw
  unfold emit
  split
  · next w' heq =>
    rw [heq] at this
    exact this
  · next e w' heq =>
    rw [heq] at this
    exact this

theorem keeps_drainBuffer (hk : k.Keeps P) (m : Manager) (hw : P w) :
    P (drainBuffer k m w).2.2 := by
  unfold drainBuffer
  split
  · exact hw
  · exact keeps_emit hk _ _ hw

theorem keeps_push (hk : k.Keeps P) (m : Manager) (hw : P w) : P (push k m w).2.2 :=
  hk.flush _ (keeps_drainBuffer hk m hw)

theorem keeps_makeRoom (hk : k.Keeps P) (bytes : ByteArray) (m : Manager) (hw : P w) :
    P (makeRoom k bytes m w).2.2 := by
  unfold makeRoom
  split
  · exact keeps_drainBuffer hk m hw
  · exact hw

theorem keeps_accept (hk : k.Keeps P) (bytes : ByteArray) (m : Manager) (hw : P w) :
    P (accept k bytes m w).2.2 := by
  unfold accept
  split
  · exact keeps_emit hk bytes m hw
  · exact hw

/-- A manager does nothing to the world but by calls of its sink. -/
theorem keeps_write (hk : k.Keeps P) (bytes : ByteArray) (endOfBatch : Bool) (m : Manager)
    (hw : P w) :
    P (write k bytes endOfBatch m w).2.2 := by
  unfold write
  split
  · exact hw
  · have haccepted := keeps_accept hk bytes (makeRoom k bytes m w).2.1
      (keeps_makeRoom hk bytes m hw)
    dsimp only
    split
    · exact keeps_push hk _ haccepted
    · exact haccepted

theorem keeps_flush (hk : k.Keeps P) (m : Manager) (hw : P w) : P (flush k m w).2.2 := by
  unfold flush
  split
  · exact hw
  · exact keeps_push hk m hw

theorem keeps_close (hk : k.Keeps P) (m : Manager) (hw : P w) : P (close k m w).2.2 := by
  unfold close
  split
  · exact hw
  · exact hk.close _ (keeps_push hk _ hw)

/-- No call of the manager disturbs it either. -/
theorem keeps_answer (hk : k.Keeps P) (c : ManagerCall) (m : Manager) (hw : P w) :
    P (answer k c m w).2.2 := by
  cases c with
  | write bytes endOfBatch => exact keeps_write hk bytes endOfBatch m hw
  | flush => exact keeps_flush hk m hw
  | close => exact keeps_close hk m hw

end Manager

-- ============================================================= streams

/-- A manager for those who do not ask whether its bytes are in the sink
or in the buffer. -/
structure Stream where
  name : String
  closed : Bool
  bytes : ByteArray

namespace Stream

/-- Put a chunk at the end. -/
def write (bytes : ByteArray) (s : Stream) : Except LogError Unit × Stream :=
  if s.closed then (.error (.managerClosed s.name), s)
  else (.ok (), { s with bytes := s.bytes ++ bytes })

/-- Flushing moves no byte to another place. -/
def flush (s : Stream) : Except LogError Unit × Stream := (.ok (), s)

def close (s : Stream) : Except LogError Unit × Stream := (.ok (), { s with closed := true })

end Stream

namespace Manager

variable {W : Type} {k : Sink W} {log : W → List Attempt}

/-- What the sink has taken, and behind it what is buffered. -/
def stream (log : W → List Attempt) (m : Manager) (w : W) : Stream where
  name := m.name
  closed := m.closed
  bytes := takenBytes (log w) ++ m.buffer

/-- What an operation gives and leaves, seen as streams. -/
def Step.streamed (log : W → List Attempt) (o : Step W) : Except LogError Unit × Stream :=
  (o.1, o.2.1.stream log o.2.2)

/-- In front of a sink that takes all, an operation only adds what came in. -/
theorem Moves.bytes_stream {m : Manager} {w : W} {held new left : List ByteArray}
    {out : Step W} {parcels : List Parcel}
    (h : Moves k log m w held new out parcels left) (hk : k.TakesAll)
    (hb : m.buffer = joinBytes held) :
    (out.2.1.stream log out.2.2).bytes = (m.stream log w).bytes ++ joinBytes new := by
  have htaken : takenBytes (parcels.map Parcel.attempt)
      = joinBytes (parcels.flatMap (·.chunks)) := by
    rw [Parcel.takenBytes_attempts, Parcel.takenChunks_eq (h.whole hk)]
  calc takenBytes (log out.2.2) ++ out.2.1.buffer
      = takenBytes (log w) ++ joinBytes (parcels.flatMap (·.chunks) ++ left) := by
        rw [h.logged, takenBytes_append, htaken, h.buffer, joinBytes_append,
          ByteArray.append_assoc]
    _ = takenBytes (log w) ++ m.buffer ++ joinBytes new := by
        rw [← h.chunks, joinBytes_append, ← hb, ByteArray.append_assoc]

/-- An operation of an open manager on a steady sink gives no error. -/
theorem Moves.streamed {m : Manager} {w : W} {held new left : List ByteArray}
    {out : Step W} {parcels : List Parcel}
    (h : Moves k log m w held new out parcels left) (hk : k.Steady)
    (hb : m.buffer = joinBytes held) :
    out.streamed log = (.ok (), ⟨m.name, out.2.1.closed,
      (m.stream log w).bytes ++ joinBytes new⟩) := by
  have hname : out.2.1.name = m.name := congrArg (·.1) h.settings
  have hbytes := h.bytes_stream hk.write hb
  show (out.1, (⟨out.2.1.name, out.2.1.closed, (out.2.1.stream log out.2.2).bytes⟩ : Stream)) = _
  rw [h.quiet hk, hname, hbytes]

theorem joinBytes_buffer (m : Manager) : m.buffer = joinBytes [m.buffer] := by simp

/-- A write puts its chunk at the end of the stream, whether or not a
batch ends with it. -/
theorem streamed_write (hk : k.Steady) (hl : k.Logs log) (bytes : ByteArray)
    (endOfBatch : Bool) (m : Manager) (w : W) :
    (write k bytes endOfBatch m w).streamed log = (m.stream log w).write bytes := by
  cases hc : m.closed with
  | true =>
      have hc' : (m.stream log w).closed = true := hc
      unfold write Stream.write
      rw [if_pos hc, if_pos hc']
      rfl
  | false =>
      have hc' : ¬ (m.stream log w).closed = true := Bool.eq_false_iff.1 hc
      obtain ⟨ps, left, h⟩ := moves_write hl bytes endOfBatch w hc m.joinBytes_buffer
      rw [h.streamed hk m.joinBytes_buffer, closed_write]
      unfold Stream.write
      rw [if_neg hc']
      simp [stream]

/-- Flushing is not seen. -/
theorem streamed_flush (hk : k.Steady) (hl : k.Logs log) (m : Manager) (w : W) :
    (flush k m w).streamed log = (m.stream log w).flush := by
  obtain ⟨ps, left, h⟩ := moves_flush hl w m.joinBytes_buffer
  rw [h.streamed hk m.joinBytes_buffer, closed_flush]
  simp [stream, Stream.flush]

/-- To close a manager is to close its stream. -/
theorem streamed_close (hk : k.Steady) (hl : k.Logs log) (m : Manager) (w : W) :
    (close k m w).streamed log = (m.stream log w).close := by
  obtain ⟨ps, left, h⟩ := moves_close hl w m.joinBytes_buffer
  rw [h.streamed hk m.joinBytes_buffer, closed_close]
  simp [stream, Stream.close]

/-- The operation of managers is, seen from outside, this one of streams. -/
structure ActsAs (op : Sink W → Manager → W → Step W)
    (act : Stream → Except LogError Unit × Stream) : Prop where
  streamed : ∀ {k : Sink W} {log : W → List Attempt}, k.Steady → k.Logs log →
    ∀ m w, (op k m w).streamed log = act (m.stream log w)
  keeps : ∀ {k : Sink W} {P : W → Prop}, k.Keeps P → ∀ (m : Manager) {w : W}, P w →
    P (op k m w).2.2
  /-- A closed manager is not touched any more. -/
  untouched : ∀ (k : Sink W) {m : Manager} (w : W), m.closed = true → (op k m w).2.1 = m

/-- On steady sinks a manager writes as its stream does. -/
theorem actsAs_write (bytes : ByteArray) (endOfBatch : Bool) :
    ActsAs (W := W) (fun k => write k bytes endOfBatch) (Stream.write bytes) where
  streamed hk hl := streamed_write hk hl bytes endOfBatch
  keeps hk m _ hw := keeps_write hk bytes endOfBatch m hw
  untouched k m w hc := by
    unfold write
    rw [if_pos hc]

/-- It flushes as its stream does. -/
theorem actsAs_flush : ActsAs (W := W) flush Stream.flush where
  streamed := streamed_flush
  keeps hk m _ hw := keeps_flush hk m hw
  untouched k m w hc := by
    unfold flush
    rw [if_pos hc]

/-- And it closes as its stream does. -/
theorem actsAs_close : ActsAs (W := W) close Stream.close where
  streamed := streamed_close
  keeps hk m _ hw := keeps_close hk m hw
  untouched k m w hc := by
    unfold close
    rw [if_pos hc]

/-- A flush of an open manager leaves nothing in the buffer. -/
theorem buffer_flush (k : Sink W) {m : Manager} (w : W) (hopen : m.closed = false) :
    (flush k m w).2.1.buffer = .empty := by
  unfold flush
  rw [hopen]
  exact buffer_push k m w

end Manager

-- ========================================================== registries

/-- The sink of one outlet never fails, and the world remembers what it was
handed apart from what others were. -/
structure Sink.Files {W : Type} (log : Nat → W → List Attempt) (i : Nat) (k : Sink W) :
    Prop where
  steady : k.Steady
  logs : k.Logs (log i)
  apart : ∀ j, j ≠ i → ∀ attempts, k.Keeps fun w => log j w = attempts

/-- A registry for those who do not ask what is buffered. -/
structure Streams where
  outlets : Nat → Option Stream
  entries : Dict RegistryEntry

namespace Streams

def withOutlet (h : ManagerHandle) (act : Stream → Except LogError Unit × Stream)
    (v : Streams) : Except LogError Unit × Streams :=
  match v.outlets h.outlet with
  | none => (.ok (), v)
  | some s =>
      ((act s).1, { v with outlets := fun i =>
        if i = h.outlet then some (act s).2 else v.outlets i })

/-- Give a handle back. The last one closes the stream. -/
def release (h : ManagerHandle) (v : Streams) : Streams :=
  match v.outlets h.outlet with
  | none => v
  | some s =>
      let (isLast, entries) := Registry.dropFrom v.entries s.name h
      if isLast then (({ v with entries := entries } : Streams).withOutlet h Stream.close).2
      else { v with entries := entries }

/-- Flushing changes nothing. -/
theorem withOutlet_flush (h : ManagerHandle) (v : Streams) :
    v.withOutlet h Stream.flush = (.ok (), v) := by
  unfold withOutlet
  split
  · rfl
  · next s hs =>
    have hsame : (fun i => if i = h.outlet then some (Stream.flush s).2 else v.outlets i)
        = v.outlets := by
      funext i
      split
      · next hi =>
        rw [hi]
        exact hs.symm
      · rfl
    rw [hsame]
    rfl

end Streams

namespace Registry

variable {W : Type} {log : Nat → W → List Attempt}

/-- Every sink never fails, and its bytes are known. -/
def Filed (log : Nat → W → List Attempt) (r : Registry W) : Prop :=
  ∀ (i : Nat) (o : Outlet W), r.outlets[i]? = some o → o.sink.Files log i

def streams (log : Nat → W → List Attempt) (r : Registry W) : Streams where
  outlets i := r.outlets[i]?.map fun o => o.manager.stream (log i) r.world
  entries := r.entries

/-- An operation of one manager is one on its stream, and the others' streams
are let alone. -/
theorem streams_withOutlet {r : Registry W} (hr : r.Filed log) (h : ManagerHandle)
    {op : Sink W → Manager → W → Manager.Step W}
    {act : Stream → Except LogError Unit × Stream} (ha : Manager.ActsAs op act) :
    (r.withOutlet h op).2.Filed log
      ∧ (r.streams log).withOutlet h act
        = ((r.withOutlet h op).1, (r.withOutlet h op).2.streams log) := by
  cases ho : r.outlets[h.outlet]? with
  | none =>
      have hnone : (r.streams log).outlets h.outlet = none := by
        simp [streams, ho]
      rw [withOutlet_none ho]
      refine ⟨hr, ?_⟩
      unfold Streams.withOutlet
      rw [hnone]
  | some o =>
      have hfiles := hr _ o ho
      have hstream := ha.streamed hfiles.steady hfiles.logs o.manager r.world
      have hget := getElem?_withOutlet r h op
      rw [withOutlet_some ho] at hget ⊢
      refine ⟨fun i o' ho' => ?_, ?_⟩
      · rw [hget] at ho'
        split at ho'
        · next hi =>
          obtain ⟨o₁, ho₁, heq⟩ := Option.map_eq_some_iff.1 ho'
          rw [← heq]
          exact hr i o₁ ho₁
        · exact hr i o' ho'
      -- the stream of the outlet acts, and those of the others are left as they are
      · have hsome : (r.streams log).outlets h.outlet
            = some (o.manager.stream (log h.outlet) r.world) := by
          simp [streams, ho]
        unfold Streams.withOutlet
        rw [hsome]
        dsimp only
        rw [← hstream]
        refine Prod.ext rfl ?_
        show Streams.mk _ _ = Streams.mk _ _
        congr 1
        funext i
        rw [hget]
        split
        · next hi =>
          rw [hi, ho]
          rfl
        · next hi =>
          -- each outlet has a log of its own
          have hkept : log i (op o.sink o.manager r.world).2.2 = log i r.world :=
            ha.keeps (hfiles.apart i hi _) o.manager rfl
          simp only [streams, Manager.stream, hkept]

-- ============================================================ operations

variable {r : Registry W}

/-- To write to a manager of the registry is to write to its stream. -/
theorem streams_write (hr : r.Filed log) (h : ManagerHandle) (bytes : ByteArray)
    (endOfBatch : Bool) :
    (r.write h bytes endOfBatch).2.Filed log
      ∧ (r.streams log).withOutlet h (Stream.write bytes)
        = ((r.write h bytes endOfBatch).1, (r.write h bytes endOfBatch).2.streams log) :=
  streams_withOutlet hr h (Manager.actsAs_write bytes endOfBatch)

/-- A flush goes well and is not seen. -/
theorem streams_flush (hr : r.Filed log) (h : ManagerHandle) :
    (r.flush h).2.Filed log ∧ (r.flush h).1 = .ok ()
      ∧ (r.flush h).2.streams log = r.streams log := by
  obtain ⟨hfiled, heq⟩ := streams_withOutlet hr h Manager.actsAs_flush
  rw [Streams.withOutlet_flush] at heq
  exact ⟨hfiled, (congrArg Prod.fst heq).symm, (congrArg Prod.snd heq).symm⟩

/-- A handle is given back without a report, and what becomes of the entry
and the manager is seen of the streams. -/
theorem streams_release (hr : r.Filed log) (h : ManagerHandle) :
    (r.release h).2.Filed log ∧ (r.release h).1 = []
      ∧ (r.release h).2.streams log = (r.streams log).release h := by
  have hout : (r.streams log).outlets h.outlet
      = r.outlets[h.outlet]?.map fun o => o.manager.stream (log h.outlet) r.world := rfl
  unfold Streams.release
  rw [hout]
  cases ho : r.outlets[h.outlet]? with
  | none =>
      rw [release_none ho]
      exact ⟨hr, rfl, rfl⟩
  | some o =>
      show _ ∧ _ ∧ _ = if (dropFrom r.entries o.manager.name h).1
        then (((r.dropped h o.manager).streams log).withOutlet h _).2
        else (r.dropped h o.manager).streams log
      cases hlast : (dropFrom r.entries o.manager.name h).1 with
      | false =>
          rw [release_kept ho hlast]
          exact ⟨hr, rfl, rfl⟩
      | true =>
          -- the last handle closes the manager, which goes well
          have hfiled : (r.dropped h o.manager).Filed log := hr
          obtain ⟨hfiled', hclose⟩ := streams_withOutlet hfiled h Manager.actsAs_close
          have hok : ((r.dropped h o.manager).close h).1 = .ok () := by
            refine (congrArg Prod.fst hclose).symm.trans ?_
            unfold Streams.withOutlet
            split <;> rfl
          rw [release_last ho hlast, hok]
          exact ⟨hfiled', rfl, (congrArg Prod.snd hclose).symm⟩

-- =============================================================== buffers

/-- What one operation lets alone: the buffers of other outlets, and the
buffer of its own if that is closed. -/
theorem bufferAt_withOutlet (r : Registry W) (h : ManagerHandle)
    {op : Sink W → Manager → W → Manager.Step W}
    {act : Stream → Except LogError Unit × Stream} (ha : Manager.ActsAs op act) {i : Nat}
    (hi : i = h.outlet → r.openAt i = false) :
    (r.withOutlet h op).2.bufferAt i = r.bufferAt i := by
  unfold bufferAt
  rw [getElem?_withOutlet]
  split
  · next heq =>
    have hclosed := hi heq
    cases ho : r.outlets[i]? with
    | none => rfl
    | some o =>
        have hc : o.manager.closed = true := by simpa [openAt, ho] using hclosed
        show some (op o.sink o.manager r.world).2.1.buffer = some o.manager.buffer
        rw [ha.untouched o.sink r.world hc]
  · rfl

/-- An operation that pushes leaves nothing in the buffer of an open manager. -/
theorem bufferAt_pushed (h : ManagerHandle) {op : Sink W → Manager → W → Manager.Step W}
    (hop : ∀ k m w, m.closed = false → (op k m w).2.1.buffer = .empty)
    (hopen : r.openAt h.outlet = true) :
    (r.withOutlet h op).2.bufferAt h.outlet = some .empty := by
  unfold bufferAt
  rw [getElem?_withOutlet, if_pos rfl]
  cases ho : r.outlets[h.outlet]? with
  | none => simp [openAt, ho] at hopen
  | some o =>
      have hc : o.manager.closed = false := by simpa [openAt, ho] using hopen
      show some (op o.sink o.manager r.world).2.1.buffer = _
      rw [hop o.sink o.manager r.world hc]

/-- Giving a handle back lets the buffers of others alone, and its own if it
is closed or empty. -/
theorem bufferAt_release (h : ManagerHandle) {i : Nat}
    (hi : i = h.outlet → r.openAt i = true → r.bufferAt i = some .empty) :
    (r.release h).2.bufferAt i = r.bufferAt i := by
  cases ho : r.outlets[h.outlet]? with
  | none => rw [release_none ho]
  | some o =>
      cases hlast : (dropFrom r.entries o.manager.name h).1 with
      | false =>
          rw [release_kept ho hlast]
          rfl
      | true =>
          rw [release_last ho hlast]
          by_cases hself : i = h.outlet
          · cases hopen : r.openAt i with
            | false =>
                exact bufferAt_withOutlet (r.dropped h o.manager) h Manager.actsAs_close
                  fun _ => hopen
            | true =>
                have hempty := hi hself hopen
                rw [hself] at hopen hempty ⊢
                rw [hempty]
                exact bufferAt_pushed (r := r.dropped h o.manager) h
                  (fun k m w hc => Manager.buffer_close k w hc) hopen
          · exact bufferAt_withOutlet (r.dropped h o.manager) h Manager.actsAs_close
              fun heq => absurd heq hself

-- ============================================================ openness

/-- Writing and flushing close nothing. -/
theorem openAt_withOutlet (r : Registry W) (h : ManagerHandle)
    {op : Sink W → Manager → W → Manager.Step W}
    (hop : ∀ k m w, (op k m w).2.1.closed = m.closed) (i : Nat) :
    (r.withOutlet h op).2.openAt i = r.openAt i := by
  unfold openAt
  rw [getElem?_withOutlet]
  split
  · rw [Option.any_map]
    simp only [hop]
  · rfl

/-- A manager is closed by giving back its own handle, if at all, and is not
opened by it. -/
theorem openAt_release (h : ManagerHandle) (i : Nat) :
    (i ≠ h.outlet → (r.release h).2.openAt i = r.openAt i)
      ∧ ((r.release h).2.openAt i = true → r.openAt i = true) := by
  cases ho : r.outlets[h.outlet]? with
  | none =>
      rw [release_none ho]
      exact ⟨fun _ => rfl, id⟩
  | some o =>
      cases hlast : (dropFrom r.entries o.manager.name h).1 with
      | false =>
          rw [release_kept ho hlast]
          exact ⟨fun _ => rfl, id⟩
      | true =>
          rw [release_last ho hlast]
          have hget := getElem?_withOutlet (r.dropped h o.manager) h Manager.close i
          unfold openAt
          by_cases hi : i = h.outlet
          · refine ⟨fun hne => absurd hi hne, fun hopen => ?_⟩
            have hget' : ((r.dropped h o.manager).close h).2.outlets[i]? = _ := hget
            rw [hget', if_pos hi, Option.any_map] at hopen
            simp [Manager.closed_close] at hopen
          · rw [if_neg hi] at hget
            have hget' : ((r.dropped h o.manager).close h).2.outlets[i]? = r.outlets[i]? := hget
            rw [hget']
            exact ⟨fun _ => rfl, id⟩

-- =============================================================== sinks

/-- What the sink of an outlet has taken. -/
def takenAt (log : Nat → W → List Attempt) (r : Registry W) (i : Nat) : Option ByteArray :=
  r.outlets[i]?.map fun _ => takenBytes (log i r.world)

/-- Of what went where only the buffers can make a difference. -/
theorem takenAt_eq {r r' : Registry W} (hstreams : r'.streams log = r.streams log) {i : Nat}
    (hbuffer : r'.bufferAt i = r.bufferAt i) : r'.takenAt log i = r.takenAt log i := by
  have hstream : r'.outlets[i]?.map (fun o => o.manager.stream (log i) r'.world)
      = r.outlets[i]?.map fun o => o.manager.stream (log i) r.world :=
    congrFun (congrArg Streams.outlets hstreams) i
  unfold bufferAt at hbuffer
  unfold takenAt
  cases ho : r.outlets[i]? with
  | none =>
      rw [ho] at hstream
      rw [Option.map_eq_none_iff.1 hstream]
      rfl
  | some o =>
      rw [ho] at hstream hbuffer
      obtain ⟨o', ho', hbytes⟩ := Option.map_eq_some_iff.1 hstream
      rw [ho'] at hbuffer ⊢
      have hsame : o'.manager.buffer = o.manager.buffer := Option.some.inj hbuffer
      have htotal : takenBytes (log i r'.world) ++ o'.manager.buffer
          = takenBytes (log i r.world) ++ o.manager.buffer := congrArg Stream.bytes hbytes
      rw [hsame] at htotal
      exact congrArg some (ByteArray.append_left_inj _ |>.1 htotal)

end Registry

-- ============================================================ oversight

theorem Sink.files_overseen {W : Type} {k : Sink W} (hk : k.Steady) (i : Nat) :
    (k.overseen i).Files (fun j w => w.attempts j) i where
  steady := ⟨fun bytes w => hk.write bytes w.world, fun w => hk.flush w.world,
    fun w => hk.close w.world⟩
  logs := ⟨fun _ _ => if_pos rfl, fun _ => rfl, fun _ => rfl⟩
  apart _ hj _ := ⟨fun _ _ hw => (if_neg hj).trans hw, fun _ hw => hw, fun _ hw => hw⟩

/-- Where no sink fails, the bytes of each are known once they are overseen. -/
theorem Registry.filed_overseen {W : Type} {r : Registry W}
    (hr : ∀ o ∈ r.outlets, o.sink.Steady) :
    r.overseen.Filed fun j w => w.attempts j := by
  intro i o' ho'
  have ho'' : (r.outlets.mapIdx fun i o =>
      (⟨o.manager, o.sink.overseen i⟩ : Outlet (Overseen W)))[i]? = some o' := ho'
  rw [Array.getElem?_mapIdx] at ho''
  obtain ⟨o, ho, rfl⟩ := Option.map_eq_some_iff.1 ho''
  exact Sink.files_overseen (hr o (Array.mem_of_getElem? ho)) i

end LogPipeline
