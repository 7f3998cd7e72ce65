/-
Which byte strings a manager hands to its sink, and when. A chunk is not
torn: each byte string is a run of whole chunks that fit the buffer
together, or one chunk that does not fit it. And the sink is called for a
reason only: the next chunk does not fit, or the call is one that pushes.

# One call

What a sink answers decides what a call tells and what is counted as
written, and nothing else. So the calls that a sink gets, and what is
buffered after them, are known from the manager alone (`calls_written`,
`written_eq`): first what is buffered, if the chunk does not fit behind
it, then the chunk, if it is larger than the whole buffer, and at last
what is buffered by then and a flush, if the call pushes.

# A history

An `Exchange` is a call with the manager before and after it and the
calls of the sink in its course. `Packed` keeps the chunks of what is
handed over apart, group by group; exchanges are packed one behind the
other (`Packed.trans`), which carries over a history (`packed_exchanges`).
A group of empty chunks is nothing to hand over, so it is left out.
-/
import LogPipeline.Proofs.Output.Conservation
import LogPipeline.Proofs.Output.Tracing

namespace LogPipeline

namespace SinkCall

/-- What a write hands over. -/
def bytes? : SinkCall → Option ByteArray
  | write bytes => some bytes
  | flush | close => none

def isFlush : SinkCall → Bool
  | flush => true
  | write _ | close => false

end SinkCall

-- ============================================================ one call

namespace Manager

variable {W : Type} {m : Manager}

/-- The chunk does not fit behind what is buffered. -/
def overflows (m : Manager) (bytes : ByteArray) : Bool :=
  decide (m.capacity - m.buffer.size < bytes.size)

/-- What is buffered once room was made for a chunk. -/
def roomFor (m : Manager) (bytes : ByteArray) : ByteArray :=
  if m.overflows bytes then .empty else m.buffer

/-- What is buffered once a chunk was accepted. -/
def bufferWith (m : Manager) (bytes : ByteArray) : ByteArray :=
  if m.capacity < bytes.size then m.roomFor bytes else m.roomFor bytes ++ bytes

/-- To hand bytes over changes what is counted as written, and nothing
else. -/
theorem emit_eq (k : Sink W) (bytes : ByteArray) (m : Manager) (w : W) :
    ∃ b, (emit k bytes m w).2.1 = { m with bytesWritten := b } := by
  unfold emit
  split
  · exact ⟨_, rfl⟩
  · exact ⟨m.bytesWritten, rfl⟩

/-- Draining leaves nothing in the buffer, whatever the sink answers. -/
theorem drainBuffer_eq (k : Sink W) (m : Manager) (w : W) :
    ∃ b, (drainBuffer k m w).2.1 = { m with buffer := .empty, bytesWritten := b } := by
  unfold drainBuffer
  split
  · next hempty =>
    have hbuffer : m.buffer = .empty :=
      ByteArray.size_eq_zero_iff.1 (by simpa [ByteArray.isEmpty] using hempty)
    exact ⟨m.bytesWritten, by rw [← hbuffer]⟩
  · exact emit_eq k m.buffer _ w

/-- A push drains and counts as a flush, whatever the sink answers. -/
theorem push_eq (k : Sink W) (m : Manager) (w : W) :
    ∃ b, (push k m w).2.1
      = { m with buffer := .empty, bytesWritten := b, flushes := m.flushes + 1 } := by
  obtain ⟨b, hb⟩ := drainBuffer_eq k m w
  refine ⟨b, ?_⟩
  show { (drainBuffer k m w).2.1 with flushes := (drainBuffer k m w).2.1.flushes + 1 } = _
  rw [hb]

theorem makeRoom_eq (k : Sink W) (bytes : ByteArray) (m : Manager) (w : W) :
    ∃ b, (makeRoom k bytes m w).2.1
      = { m with buffer := m.roomFor bytes, bytesWritten := b } := by
  unfold makeRoom roomFor overflows
  by_cases hover : m.capacity - m.buffer.size < bytes.size
  · rw [if_pos hover, if_pos (decide_eq_true hover)]
    exact drainBuffer_eq k m w
  · rw [if_neg hover, if_neg (by simpa using hover)]
    exact ⟨m.bytesWritten, rfl⟩

theorem accept_eq (k : Sink W) (bytes : ByteArray) (m : Manager) (w : W) :
    ∃ b, (accept k bytes m w).2.1 = { m with
      buffer := if m.capacity < bytes.size then m.buffer else m.buffer ++ bytes
      bytesWritten := b } := by
  unfold accept
  split
  · exact emit_eq k bytes m w
  · exact ⟨m.bytesWritten, rfl⟩

/-- What a write leaves, but for the count of the bytes that were taken. -/
theorem written_eq (k : Sink W) (bytes : ByteArray) (endOfBatch : Bool) (w : W)
    (hopen : m.closed = false) :
    ∃ b, (write k bytes endOfBatch m w).2.1 = { m with
      buffer := if m.immediateFlush || endOfBatch then .empty else m.bufferWith bytes
      bytesWritten := b
      flushes := if m.immediateFlush || endOfBatch then m.flushes + 1 else m.flushes } := by
  unfold write
  rw [if_neg (Bool.eq_false_iff.1 hopen)]
  obtain ⟨b₁, hroom⟩ := makeRoom_eq k bytes m w
  rcases hmade : makeRoom k bytes m w with ⟨r₁, m₁, w₁⟩
  rw [hmade] at hroom
  dsimp only at hroom ⊢
  obtain ⟨b₂, hfilled⟩ := accept_eq k bytes m₁ w₁
  rcases haccepted : accept k bytes m₁ w₁ with ⟨r₂, m₂, w₂⟩
  rw [haccepted] at hfilled
  dsimp only at hfilled ⊢
  rw [hfilled, hroom]
  by_cases hpush : (m.immediateFlush || endOfBatch) = true
  · rw [if_pos hpush, if_pos hpush, if_pos hpush]
    exact push_eq k _ w₂
  · rw [if_neg hpush, if_neg hpush, if_neg hpush]
    exact ⟨b₂, rfl⟩

theorem flushed_eq (k : Sink W) (w : W) (hopen : m.closed = false) :
    ∃ b, (flush k m w).2.1
      = { m with buffer := .empty, bytesWritten := b, flushes := m.flushes + 1 } := by
  unfold flush
  rw [if_neg (Bool.eq_false_iff.1 hopen)]
  exact push_eq k m w

theorem closed_eq (k : Sink W) (w : W) (hopen : m.closed = false) :
    ∃ b, (close k m w).2.1 = { m with
      closed := true, buffer := .empty, bytesWritten := b, flushes := m.flushes + 1 } := by
  unfold close
  rw [if_neg (Bool.eq_false_iff.1 hopen)]
  exact push_eq k { m with closed := true } w

-- ------------------------------------------------ what the sink is called

variable {k : Sink W} {n : Nat}

/-- The calls of the sink in the course of a write. -/
def writeCalls (m : Manager) (bytes : ByteArray) (endOfBatch : Bool) : List SinkCall :=
  (if m.overflows bytes then m.pending else [])
    ++ (if m.capacity < bytes.size then [.write bytes] else [])
    ++ (if m.immediateFlush || endOfBatch
        then { m with buffer := m.bufferWith bytes }.pending ++ [.flush] else [])

/-- To make room the sink gets what is buffered, if anything is. -/
theorem calls_makeRoom (bytes : ByteArray) (m : Manager) (t : Traced W) :
    (makeRoom (k.traced n) bytes m t).2.2.calls n
      = t.calls n ++ if m.overflows bytes then m.pending else [] := by
  unfold makeRoom overflows
  by_cases hover : m.capacity - m.buffer.size < bytes.size
  · rw [if_pos hover, if_pos (decide_eq_true hover)]
    exact calls_drainBuffer m t
  · rw [if_neg hover, if_neg (by simpa using hover), List.append_nil]

/-- It gets the chunk itself if that is too large to buffer. -/
theorem calls_accept (bytes : ByteArray) (m : Manager) (t : Traced W) :
    (accept (k.traced n) bytes m t).2.2.calls n
      = t.calls n ++ if m.capacity < bytes.size then [.write bytes] else [] := by
  unfold accept
  split
  · exact calls_emit bytes m t
  · exact (List.append_nil _).symm

/-- A write calls the sink as the manager alone decides, whatever it
answers. -/
theorem calls_written (bytes : ByteArray) (endOfBatch : Bool) (t : Traced W)
    (hopen : m.closed = false) :
    (write (k.traced n) bytes endOfBatch m t).2.2.calls n
      = t.calls n ++ m.writeCalls bytes endOfBatch := by
  unfold write
  rw [if_neg (Bool.eq_false_iff.1 hopen)]
  obtain ⟨b₁, hroom⟩ := makeRoom_eq (k.traced n) bytes m t
  have hcalls₁ := calls_makeRoom (k := k) (n := n) bytes m t
  rcases hmade : makeRoom (k.traced n) bytes m t with ⟨r₁, m₁, t₁⟩
  rw [hmade] at hroom hcalls₁
  dsimp only at hroom hcalls₁ ⊢
  obtain ⟨b₂, hfilled⟩ := accept_eq (k.traced n) bytes m₁ t₁
  have hcalls₂ := calls_accept (k := k) (n := n) bytes m₁ t₁
  rcases haccepted : accept (k.traced n) bytes m₁ t₁ with ⟨r₂, m₂, t₂⟩
  rw [haccepted] at hfilled hcalls₂
  dsimp only at hfilled hcalls₂ ⊢
  rw [hroom] at hcalls₂ hfilled
  unfold writeCalls
  rw [← List.append_assoc, ← List.append_assoc, ← hcalls₁, ← hcalls₂, hfilled]
  dsimp only
  by_cases hpush : (m.immediateFlush || endOfBatch) = true
  · rw [if_pos hpush, if_pos hpush]
    exact calls_push _ t₂
  · rw [if_neg hpush, if_neg hpush, List.append_nil]

end Manager

-- ============================================================= packing

/-- Chunks that are handed over together: they fit the buffer, or there is
only one, which does not. -/
def Whole (capacity : Nat) (group : List ByteArray) : Prop :=
  (joinBytes group).size ≤ capacity ∨ ∃ chunk, group = [chunk] ∧ capacity < chunk.size

/-- Behind the chunks `held` in the buffer come `new` ones; the calls hand
over whole groups of them, in order, and the chunks `left` stay in the
buffer. Nobody is handed an empty byte string. -/
structure Packed (capacity : Nat) (held new : List ByteArray) (calls : List SinkCall)
    (groups : List (List ByteArray)) (left : List ByteArray) : Prop where
  chunks : held ++ new = groups.flatten ++ left
  handed : calls.filterMap SinkCall.bytes? = (groups.map joinBytes).filter (!·.isEmpty)
  whole : ∀ g ∈ groups, Whole capacity g

namespace Packed

variable {capacity : Nat} {held new mid more left : List ByteArray}
  {calls calls' : List SinkCall} {groups groups' : List (List ByteArray)}

theorem refl (capacity : Nat) (held : List ByteArray) : Packed capacity held [] [] [] held where
  chunks := by simp
  handed := rfl
  whole _ hg := by cases hg

theorem trans (h : Packed capacity held new calls groups mid)
    (h' : Packed capacity mid more calls' groups' left) :
    Packed capacity held (new ++ more) (calls ++ calls') (groups ++ groups') left where
  chunks := by
    rw [← List.append_assoc, h.chunks, List.append_assoc, h'.chunks, List.flatten_append,
      List.append_assoc]
  handed := by
    rw [List.filterMap_append, h.handed, h'.handed, List.map_append, List.filter_append]
  whole g hg := (List.mem_append.1 hg).elim (h.whole g) (h'.whole g)

/-- Calls that hand nothing over may follow. -/
theorem followed (h : Packed capacity held new calls groups left)
    (hcalls : calls'.filterMap SinkCall.bytes? = []) :
    Packed capacity held new (calls ++ calls') groups left where
  chunks := h.chunks
  handed := by rw [List.filterMap_append, hcalls, List.append_nil, h.handed]
  whole := h.whole

end Packed

namespace Manager

variable {m : Manager} {held : List ByteArray} {bytes : ByteArray}

/-- The chunks in the buffer are handed over together. -/
theorem packed_pending (hb : m.buffer = joinBytes held) (hfits : m.buffer.size ≤ m.capacity) :
    Packed m.capacity held [] m.pending [held] [] where
  chunks := by simp
  handed := by
    unfold pending
    rw [List.map_singleton, ← hb]
    cases hempty : m.buffer.isEmpty <;> simp [SinkCall.bytes?, hempty]
  whole g hg := by
    rw [List.mem_singleton.1 hg]
    exact .inl (hb ▸ hfits)

/-- Making room hands over all that is held, as one group. -/
theorem packed_makeRoom (hb : m.buffer = joinBytes held) (hfits : m.buffer.size ≤ m.capacity)
    (bytes : ByteArray) :
    ∃ groups mid, Packed m.capacity held [] (if m.overflows bytes then m.pending else [])
        groups mid
      ∧ m.roomFor bytes = joinBytes mid ∧ (m.overflows bytes = true → mid = []) := by
  unfold roomFor
  cases hover : m.overflows bytes with
  | true => exact ⟨[held], [], packed_pending hb hfits, rfl, fun _ => rfl⟩
  | false => exact ⟨[], held, .refl _ _, hb, fun h => by cases h⟩

/-- A chunk that is larger than the buffer does not fit behind anything. -/
theorem overflows_of_large (h : m.capacity < bytes.size) : m.overflows bytes = true :=
  decide_eq_true (by omega)

/-- What is buffered fits the buffer, once a chunk was accepted too. -/
theorem size_bufferWith (hfits : m.buffer.size ≤ m.capacity) (bytes : ByteArray) :
    (m.bufferWith bytes).size ≤ m.capacity := by
  unfold bufferWith roomFor
  by_cases hlarge : m.capacity < bytes.size
  · rw [if_pos hlarge, if_pos (overflows_of_large hlarge), ByteArray.size_empty]
    exact Nat.zero_le _
  · rw [if_neg hlarge, ByteArray.size_append]
    split
    · rw [ByteArray.size_empty]
      omega
    · next hover =>
      unfold overflows at hover
      have hroom : ¬ m.capacity - m.buffer.size < bytes.size := by simpa using hover
      omega

/-- A write hands over what has to make room for its chunk, its chunk if
that is too large for the buffer, and at last what a push finds. -/
theorem packed_write (hb : m.buffer = joinBytes held) (hfits : m.buffer.size ≤ m.capacity)
    (bytes : ByteArray) (endOfBatch : Bool) :
    ∃ groups left, Packed m.capacity held [bytes] (m.writeCalls bytes endOfBatch) groups left
      ∧ (if m.immediateFlush || endOfBatch then .empty else m.bufferWith bytes)
        = joinBytes left := by
  obtain ⟨groups, mid, hroom, hmid, hover⟩ := packed_makeRoom hb hfits bytes
  obtain ⟨groups', full, haccepted, hfull⟩ : ∃ groups' full,
      Packed m.capacity mid [bytes] (if m.capacity < bytes.size then [.write bytes] else [])
        groups' full ∧ m.bufferWith bytes = joinBytes full := by
    unfold bufferWith
    by_cases hlarge : m.capacity < bytes.size
    · have hnone : mid = [] := hover (overflows_of_large hlarge)
      rw [if_pos hlarge, if_pos hlarge, hnone]
      refine ⟨[[bytes]], [], ⟨rfl, ?_, fun g hg => ?_⟩, hnone ▸ hmid⟩
      · have hsome : bytes.isEmpty = false := by
          simp only [ByteArray.isEmpty, beq_eq_false_iff_ne]
          omega
        simp [SinkCall.bytes?, hsome]
      · rw [List.mem_singleton.1 hg]
        exact .inr ⟨bytes, rfl, hlarge⟩
    · rw [if_neg hlarge, if_neg hlarge]
      exact ⟨[], mid ++ [bytes], ⟨by simp, rfl, fun _ hg => by cases hg⟩, by simp [hmid]⟩
  have hwritten := hroom.trans haccepted
  unfold writeCalls
  by_cases hpush : (m.immediateFlush || endOfBatch) = true
  · rw [if_pos hpush, if_pos hpush]
    have hpushed : Packed m.capacity full []
        ({ m with buffer := m.bufferWith bytes }.pending ++ [.flush]) [full] [] :=
      (packed_pending (m := { m with buffer := m.bufferWith bytes }) hfull
        (size_bufferWith hfits bytes)).followed rfl
    exact ⟨_, [], hwritten.trans hpushed, rfl⟩
  · rw [if_neg hpush, if_neg hpush]
    exact ⟨_, full, hwritten.trans (.refl _ _), hfull⟩

end Manager

-- =========================================================== exchanges

/-- A call that was answered: the manager before and after it, and what was
called of the sink in its course. -/
structure Exchange where
  call : ManagerCall
  before : Manager
  sinkCalls : List SinkCall
  after : Manager

namespace Exchange

/-- The call is one that pushes what is buffered. -/
def pushes (x : Exchange) : Bool :=
  match x.call with
  | .write _ endOfBatch => x.before.immediateFlush || endOfBatch
  | .flush | .close => true

/-- The call brings a chunk that does not fit behind what is buffered. -/
def overflows (x : Exchange) : Bool :=
  match x.call with
  | .write bytes _ => x.before.overflows bytes
  | .flush | .close => false

/-- The chunks that the call brought to a manager that was open. -/
def admitted (x : Exchange) : List ByteArray :=
  if x.before.closed then [] else x.call.chunks

/-- The byte strings that were handed to the sink. -/
def handed (x : Exchange) : List ByteArray := x.sinkCalls.filterMap SinkCall.bytes?

/-- How often the sink was flushed. -/
def flushes (x : Exchange) : Nat := x.sinkCalls.countP SinkCall.isFlush

/-- The sink is called for a reason. -/
structure Regular (x : Exchange) : Prop where
  /-- A manager that was closed does not call its sink any more. -/
  late : x.before.closed = true → x.sinkCalls = [] ∧ x.after = x.before
  /-- Only what does not fit or a push makes a manager call its sink. -/
  reason : x.sinkCalls ≠ [] → x.before.closed = false ∧ (x.overflows = true ∨ x.pushes = true)
  /-- Else the chunk joins what is buffered. -/
  kept : x.before.closed = false → x.overflows = false → x.pushes = false →
    x.after.buffer = x.before.buffer ++ joinBytes x.call.chunks
  /-- What is buffered goes ahead of a chunk that does not fit behind it. -/
  ahead : x.before.closed = false → x.overflows = true → x.before.pending <+: x.sinkCalls
  pushed : x.before.closed = false → x.pushes = true → x.after.buffer = .empty
  /-- A push flushes the sink once, and nothing else flushes it. -/
  flushes_eq : x.flushes = if !x.before.closed && x.pushes then 1 else 0
  counted : x.after.flushes = x.before.flushes + x.flushes
  settings : x.after.settings = x.before.settings

end Exchange

namespace Manager

variable {W : Type} {m : Manager} {held : List ByteArray}

/-- Answer a call, and note the calls of the sink in its course. -/
def exchange (k : Sink W) (c : ManagerCall) (m : Manager) (w : W) : Exchange × W :=
  let (_, after, t) := m.answer (k.traced 0) c (.start w)
  (⟨c, m, t.calls 0, after⟩, t.world)

/-- Answer calls, one after another. -/
def exchanges (k : Sink W) : List ManagerCall → Manager → W → List Exchange
  | [], _, _ => []
  | c :: rest, m, w =>
    let (x, w) := m.exchange k c w
    x :: exchanges k rest x.after w

-- --------------------------------------------- what an exchange comes to

section

variable (k : Sink W) (w : W)

/-- A closed manager calls its sink for nothing. -/
theorem exchange_late (c : ManagerCall) (hclosed : m.closed = true) :
    (m.exchange k c w).1 = ⟨c, m, [], m⟩ := by
  unfold exchange
  rw [Session.answer_closed (k.traced 0) c _ hclosed]
  rfl

/-- What a write is as an exchange: its calls, and the manager after it. -/
theorem exchange_write (bytes : ByteArray) (endOfBatch : Bool) (hopen : m.closed = false) :
    ∃ b, (m.exchange k (.write bytes endOfBatch) w).1
      = ⟨.write bytes endOfBatch, m, m.writeCalls bytes endOfBatch, { m with
        buffer := if m.immediateFlush || endOfBatch then .empty else m.bufferWith bytes
        bytesWritten := b
        flushes := if m.immediateFlush || endOfBatch then m.flushes + 1 else m.flushes }⟩ := by
  obtain ⟨b, hafter⟩ := written_eq (k.traced 0) bytes endOfBatch (.start w) hopen
  refine ⟨b, ?_⟩
  rw [← hafter, ← show _ = m.writeCalls bytes endOfBatch from
    calls_written (k := k) (n := 0) bytes endOfBatch (.start w) hopen]
  rfl

theorem exchange_flush (hopen : m.closed = false) :
    ∃ b, (m.exchange k .flush w).1 = ⟨.flush, m, m.pending ++ [.flush],
      { m with buffer := .empty, bytesWritten := b, flushes := m.flushes + 1 }⟩ := by
  obtain ⟨b, hafter⟩ := flushed_eq (k.traced 0) (.start w) hopen
  refine ⟨b, ?_⟩
  have hcalls : (flush (k.traced 0) m (.start w)).2.2.calls 0 = m.pending ++ [.flush] := by
    unfold flush
    rw [if_neg (Bool.eq_false_iff.1 hopen)]
    exact calls_push m (.start w)
  rw [← hafter, ← hcalls]
  rfl

/-- What closing is: all that is pending, a flush of the sink, and its
close. -/
theorem exchange_close (hopen : m.closed = false) :
    ∃ b, (m.exchange k .close w).1 = ⟨.close, m, m.pending ++ [.flush, .close], { m with
      closed := true, buffer := .empty, bytesWritten := b, flushes := m.flushes + 1 }⟩ := by
  obtain ⟨b, hafter⟩ := closed_eq (k.traced 0) (.start w) hopen
  refine ⟨b, ?_⟩
  rw [← hafter, ← show _ = m.pending ++ [.flush, .close] from
    calls_close (k := k) (n := 0) hopen (.start w)]
  rfl

end

theorem flushes_pending (m : Manager) : m.pending.countP SinkCall.isFlush = 0 := by
  unfold pending
  split <;> rfl

/-- A write flushes the sink if it pushes, and not to make room. -/
theorem flushes_writeCalls (m : Manager) (bytes : ByteArray) (endOfBatch : Bool) :
    (m.writeCalls bytes endOfBatch).countP SinkCall.isFlush
      = if m.immediateFlush || endOfBatch then 1 else 0 := by
  have hroom : (if m.overflows bytes then m.pending else []).countP SinkCall.isFlush = 0 := by
    split
    · exact flushes_pending m
    · rfl
  have hdirect : (if m.capacity < bytes.size then [SinkCall.write bytes] else []).countP
      SinkCall.isFlush = 0 := by
    split <;> rfl
  unfold writeCalls
  rw [List.countP_append, List.countP_append, hroom, hdirect]
  split
  · rw [List.countP_append, flushes_pending]
    rfl
  · rfl

/-- A chunk that fits is put behind what is buffered, and the sink is not called. -/
theorem writeCalls_quiet {bytes : ByteArray} {endOfBatch : Bool}
    (hover : m.overflows bytes = false) (hpush : (m.immediateFlush || endOfBatch) = false) :
    m.writeCalls bytes endOfBatch = [] ∧ m.bufferWith bytes = m.buffer ++ bytes := by
  have hsmall : ¬ m.capacity < bytes.size := fun hlarge => by
    rw [overflows_of_large hlarge] at hover
    cases hover
  unfold writeCalls bufferWith roomFor
  simp [hover, hpush, hsmall]

theorem regular_write (k : Sink W) (w : W) (bytes : ByteArray) (endOfBatch : Bool)
    (hopen : m.closed = false) : (m.exchange k (.write bytes endOfBatch) w).1.Regular := by
  obtain ⟨b, hx⟩ := exchange_write k w bytes endOfBatch hopen
  rw [hx]
  exact {
    late := fun hclosed => by
      rw [show m.closed = false from hopen] at hclosed
      cases hclosed
    reason := by
      intro hcalled
      refine ⟨hopen, ?_⟩
      -- without an overflow and without a push the sink is not called
      cases hover : m.overflows bytes with
      | true => exact .inl hover
      | false =>
          cases hpush : m.immediateFlush || endOfBatch with
          | true => exact .inr hpush
          | false => exact absurd (writeCalls_quiet hover hpush).1 hcalled
    kept := by
      intro _ hover hpush
      have hpush' : (m.immediateFlush || endOfBatch) = false := hpush
      simp only [hpush', Bool.false_eq_true, if_false, ManagerCall.chunks, joinBytes_cons,
        joinBytes_nil, ByteArray.append_empty]
      exact (writeCalls_quiet hover hpush').2
    ahead := by
      intro _ hover
      have hover' : m.overflows bytes = true := hover
      show m.pending <+: m.writeCalls bytes endOfBatch
      unfold writeCalls
      rw [if_pos hover', List.append_assoc]
      exact List.prefix_append _ _
    pushed := fun _ hpush => if_pos hpush
    flushes_eq := by
      have hflushes := flushes_writeCalls m bytes endOfBatch
      simpa [Exchange.flushes, Exchange.pushes, hopen] using hflushes
    counted := by
      have hflushes := flushes_writeCalls m bytes endOfBatch
      show (if m.immediateFlush || endOfBatch then m.flushes + 1 else m.flushes)
        = m.flushes + (m.writeCalls bytes endOfBatch).countP SinkCall.isFlush
      rw [hflushes]
      split <;> rfl
    settings := rfl }

/-- To flush and to close are to push first. -/
theorem regular_pushed {x : Exchange} {rest : List SinkCall} (hopen : x.before.closed = false)
    (hover : x.overflows = false) (hpush : x.pushes = true)
    (hcalls : x.sinkCalls = x.before.pending ++ .flush :: rest)
    (hrest : rest.countP SinkCall.isFlush = 0) (hbuffer : x.after.buffer = .empty)
    (hcounted : x.after.flushes = x.before.flushes + 1)
    (hsettings : x.after.settings = x.before.settings) : x.Regular := by
  have hflushes : x.flushes = 1 := by
    unfold Exchange.flushes
    rw [hcalls, List.countP_append, flushes_pending, List.countP_cons, hrest]
    rfl
  exact {
    late := fun hclosed => by
      rw [hopen] at hclosed
      cases hclosed
    reason := fun _ => ⟨hopen, .inr hpush⟩
    kept := fun _ _ hno => by
      rw [hpush] at hno
      cases hno
    ahead := fun _ hyes => by
      rw [hover] at hyes
      cases hyes
    pushed := fun _ _ => hbuffer
    flushes_eq := by rw [hflushes, hopen, hpush]; rfl
    counted := by rw [hcounted, hflushes]
    settings := hsettings }

/-- Every exchange is regular, whatever the sink answers. -/
theorem regular_exchange (k : Sink W) (c : ManagerCall) (m : Manager) (w : W) :
    (m.exchange k c w).1.Regular := by
  cases hclosed : m.closed with
  | true =>
      have hnever : ∀ {P : Prop}, m.closed = false → P := fun hopen => by
        rw [hclosed] at hopen
        cases hopen
      rw [exchange_late k w c hclosed]
      exact {
        late := fun _ => ⟨rfl, rfl⟩
        reason := fun hcalled => absurd rfl hcalled
        kept := hnever
        ahead := hnever
        pushed := hnever
        flushes_eq := by simp [Exchange.flushes, hclosed]
        counted := rfl
        settings := rfl }
  | false =>
      cases c with
      | write bytes endOfBatch => exact regular_write k w bytes endOfBatch hclosed
      | flush =>
          obtain ⟨b, hx⟩ := exchange_flush k w hclosed
          rw [hx]
          exact regular_pushed hclosed rfl rfl rfl rfl rfl rfl rfl
      | close =>
          obtain ⟨b, hx⟩ := exchange_close k w hclosed
          rw [hx]
          exact regular_pushed hclosed rfl rfl rfl rfl rfl rfl rfl

/-- What is buffered is packed with what a call brings. -/
theorem packed_exchange (k : Sink W) (c : ManagerCall) (w : W) (hb : m.buffer = joinBytes held)
    (hfits : m.buffer.size ≤ m.capacity) :
    ∃ x groups left, (m.exchange k c w).1 = x
      ∧ Packed m.capacity held x.admitted x.sinkCalls groups left
      ∧ x.after.buffer = joinBytes left ∧ x.after.buffer.size ≤ m.capacity := by
  cases hclosed : m.closed with
  | true =>
      refine ⟨_, [], held, exchange_late k w c hclosed, ?_, hb, hfits⟩
      have hadmitted : Exchange.admitted ⟨c, m, [], m⟩ = [] := if_pos hclosed
      rw [hadmitted]
      exact .refl _ _
  | false =>
      have hadmitted : ∀ x : Exchange, x.before = m → x.admitted = x.call.chunks := by
        rintro x rfl
        exact if_neg (Bool.eq_false_iff.1 hclosed)
      cases c with
      | write bytes endOfBatch =>
          obtain ⟨b, hx⟩ := exchange_write k w bytes endOfBatch hclosed
          obtain ⟨groups, left, hpacked, hleft⟩ := packed_write hb hfits bytes endOfBatch
          refine ⟨_, groups, left, hx, by rw [hadmitted _ rfl]; exact hpacked, hleft, ?_⟩
          dsimp only
          split
          · exact Nat.zero_le _
          · exact size_bufferWith hfits bytes
      | flush =>
          obtain ⟨b, hx⟩ := exchange_flush k w hclosed
          refine ⟨_, [held], [], hx, ?_, rfl, Nat.zero_le _⟩
          rw [hadmitted _ rfl]
          exact (packed_pending hb hfits).followed rfl
      | close =>
          obtain ⟨b, hx⟩ := exchange_close k w hclosed
          refine ⟨_, [held], [], hx, ?_, rfl, Nat.zero_le _⟩
          rw [hadmitted _ rfl]
          exact (packed_pending hb hfits).followed rfl

/-- An exchange is the call's answer, for a sink that nobody listens to. -/
theorem exchange_plain (k : Sink W) (c : ManagerCall) (m : Manager) (w : W) :
    (m.exchange k c w).1.after = (m.answer k c w).2.1
      ∧ (m.exchange k c w).2 = (m.answer k c w).2.2 := by
  have hsame : (answer (k.traced 0) c m (.start w)).through Traced.world = answer k c m w :=
    answer_mirrored (k.mirrors_traced 0) c m (.start w)
  exact ⟨congrArg (·.2.1) hsame, congrArg (·.2.2) hsame⟩

/-- A manager that is closed has nothing buffered, and a call that pushes
leaves nothing. -/
theorem emptied_exchange (k : Sink W) (c : ManagerCall) (w : W)
    (hempty : m.closed = true → m.buffer = .empty) :
    ((m.exchange k c w).1.after.closed = true → (m.exchange k c w).1.after.buffer = .empty)
      ∧ ((m.exchange k c w).1.pushes = true → (m.exchange k c w).1.after.buffer = .empty) := by
  constructor
  · rw [(exchange_plain k c m w).1]
    exact Session.emptied_answer k c w hempty
  · cases hclosed : m.closed with
    | true =>
        rw [exchange_late k w c hclosed]
        exact fun _ => hempty hclosed
    | false => exact (regular_exchange k c m w).pushed hclosed

-- ============================================================ histories

/-- The manager once the calls were answered. -/
def afterAll (k : Sink W) (calls : List ManagerCall) (m : Manager) (w : W) : Manager :=
  (answerAll k calls m w).2.1

theorem afterAll_cons (k : Sink W) (c : ManagerCall) (rest : List ManagerCall) (m : Manager)
    (w : W) :
    m.afterAll k (c :: rest) w
      = (m.exchange k c w).1.after.afterAll k rest (m.exchange k c w).2 := by
  obtain ⟨hafter, hworld⟩ := exchange_plain k c m w
  rw [hafter, hworld]
  rfl

theorem exchanges_cons (k : Sink W) (c : ManagerCall) (rest : List ManagerCall) (m : Manager)
    (w : W) :
    m.exchanges k (c :: rest) w = (m.exchange k c w).1
      :: (m.exchange k c w).1.after.exchanges k rest (m.exchange k c w).2 := rfl

/-- Each exchange begins where the one before it ended. -/
theorem exchanges_linked (k : Sink W) (calls : List ManagerCall) (m : Manager) (w : W) :
    (m.exchanges k calls w).map (·.call) = calls
      ∧ (m.exchanges k calls w).map (·.before) ++ [m.afterAll k calls w]
        = m :: (m.exchanges k calls w).map (·.after) := by
  induction calls generalizing m w with
  | nil => exact ⟨rfl, rfl⟩
  | cons c rest ih =>
      obtain ⟨hcalls, hmanagers⟩ := ih (m.exchange k c w).1.after (m.exchange k c w).2
      rw [exchanges_cons, afterAll_cons, List.map_cons, List.map_cons, List.map_cons,
        List.cons_append, hcalls, hmanagers]
      exact ⟨rfl, rfl⟩

/-- Over a whole history the sink gets the chunks in groups, and the rest is
still held. -/
theorem packed_exchanges (k : Sink W) (calls : List ManagerCall) (w : W)
    (hb : m.buffer = joinBytes held) (hfits : m.buffer.size ≤ m.capacity) :
    ∃ groups left,
      Packed m.capacity held ((m.exchanges k calls w).flatMap (·.admitted))
        ((m.exchanges k calls w).flatMap (·.sinkCalls)) groups left
      ∧ (m.afterAll k calls w).buffer = joinBytes left := by
  induction calls generalizing m w held with
  | nil => exact ⟨[], held, .refl _ _, hb⟩
  | cons c rest ih =>
      obtain ⟨x, groups, mid, hx, hpacked, hmid, hsize⟩ := packed_exchange k c w hb hfits
      have hcapacity : x.after.capacity = m.capacity := by
        rw [← hx]
        exact congrArg (·.2.1) (regular_exchange k c m w).settings
      rw [exchanges_cons, afterAll_cons, hx, List.flatMap_cons, List.flatMap_cons]
      obtain ⟨groups', left, hrest, hleft⟩ :=
        ih (m.exchange k c w).2 hmid (hcapacity ▸ hsize)
      exact ⟨_, left, hpacked.trans (hcapacity ▸ hrest), hleft⟩

/-- Along a history every exchange is regular, on a manager that is set as
it was, and leaves nothing in the buffer if it is to push. -/
theorem regular_exchanges (k : Sink W) (calls : List ManagerCall) (m : Manager) (w : W)
    (hempty : m.closed = true → m.buffer = .empty) :
    ∀ x ∈ m.exchanges k calls w, x.Regular ∧ x.before.settings = m.settings
      ∧ (x.pushes = true → x.after.buffer = .empty) := by
  induction calls generalizing m w with
  | nil =>
      intro x hx
      cases hx
  | cons c rest ih =>
      obtain ⟨hclosed, hpushed⟩ := emptied_exchange k c w hempty
      intro x hx
      rw [exchanges_cons] at hx
      rcases List.mem_cons.1 hx with rfl | hx
      · exact ⟨regular_exchange k c m w, rfl, hpushed⟩
      · obtain ⟨hregular, hsettings, hempty'⟩ := ih _ _ hclosed x hx
        exact ⟨hregular, hsettings.trans (regular_exchange k c m w).settings, hempty'⟩

/-- The manager counts the flushes of its sink, one for each call of an
/-- A history flushes the sink once for each exchange that pushes, and the
manager counts these. -/
open manager that pushes. -/
theorem flushes_exchanges (k : Sink W) (calls : List ManagerCall) (m : Manager) (w : W) :
    (m.afterAll k calls w).flushes = m.flushes
        + (m.exchanges k calls w).countP fun x => !x.before.closed && x.pushes
      ∧ ((m.exchanges k calls w).flatMap (·.sinkCalls)).countP SinkCall.isFlush
        = (m.exchanges k calls w).countP fun x => !x.before.closed && x.pushes := by
  induction calls generalizing m w with
  | nil => exact ⟨rfl, rfl⟩
  | cons c rest ih =>
      have hregular := regular_exchange k c m w
      obtain ⟨hcount, htotal⟩ := ih (m.exchange k c w).1.after (m.exchange k c w).2
      have hone : (m.exchange k c w).1.sinkCalls.countP SinkCall.isFlush
          = if !(m.exchange k c w).1.before.closed && (m.exchange k c w).1.pushes then 1
            else 0 := hregular.flushes_eq
      rw [exchanges_cons, afterAll_cons, List.countP_cons, List.flatMap_cons, List.countP_append,
        htotal, hone, hcount, hregular.counted, hregular.flushes_eq]
      exact ⟨by rw [Nat.add_assoc, Nat.add_comm (ite _ _ _)]; rfl, Nat.add_comm _ _⟩

/-- Chunks are not torn on their way to the sink, and they are not handed
over without a reason. Along every history of calls on a manager, however
its sink fails: the byte strings that the sink is handed are not empty,
and are the chunks that were admitted, in order, each of them some whole
chunks that fit the buffer together or one chunk that does not fit it; the
rest is buffered. The sink is called in the course of a call only if its
chunk does not fit or it pushes and the manager is open; after a call that
pushes nothing is buffered, and the sink was flushed in its course once if
the manager was open, and in the course of other calls not at all. The
manager counts just these flushes. -/
theorem handed_whole (k : Sink W) (name : String) (capacity : Nat) (immediateFlush : Bool)
    (attributes : Dict String) (w : W) (calls : List ManagerCall) :
    let m₀ := Manager.new name capacity immediateFlush attributes
    let m := m₀.afterAll k calls w
    let xs := m₀.exchanges k calls w
    (xs.map (·.call) = calls ∧ xs.map (·.before) ++ [m] = m₀ :: xs.map (·.after))
      ∧ (∃ groups held,
          Packed capacity [] (xs.flatMap (·.admitted)) (xs.flatMap (·.sinkCalls)) groups held
            ∧ m.buffer = joinBytes held)
      ∧ (∀ x ∈ xs, x.Regular ∧ x.before.settings = m₀.settings
          ∧ (x.pushes = true → x.after.buffer = .empty))
      ∧ m.flushes = xs.countP (fun x => !x.before.closed && x.pushes)
      ∧ (xs.flatMap (·.sinkCalls)).countP SinkCall.isFlush = m.flushes := by
  intro m₀ m xs
  obtain ⟨hcount, htotal⟩ := flushes_exchanges k calls m₀ w
  have hflushes : m.flushes = xs.countP fun x => !x.before.closed && x.pushes :=
    hcount.trans (Nat.zero_add _)
  exact ⟨exchanges_linked k calls m₀ w, packed_exchanges (m := m₀) k calls w rfl (Nat.zero_le _),
    regular_exchanges k calls m₀ w fun _ => rfl, hflushes, htotal.trans hflushes.symm⟩

end Manager

end LogPipeline
