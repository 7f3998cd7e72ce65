/-
What a manager hands to its sink, and what becomes of it. A manager takes
chunks and hands on byte strings; a byte string is one buffer of chunks,
or one chunk that was too large for it. `Parcel` keeps the chunks of a
byte string apart, and `Moves` says of one operation which parcels it
handed over, and which chunks it left in the buffer.

# Reading `Moves`

Chunks enter on the right and leave on the left, so the books are one
equation of lists: what was held and what is new is what was handed over
and what is held now, in that order (`chunks`). Whether the sink took a
parcel is noted on the parcel. Nothing is handed over a second time,
since a parcel that was refused is not held any more.

The operations are put together by `firstError`, and `Moves.trans`
follows them; every operation is a line or two from there.
-/
import LogPipeline.Output.Manager

namespace LogPipeline

-- ============================================================== bytes

/-- Byte strings, one after another. -/
def joinBytes (chunks : List ByteArray) : ByteArray := chunks.foldr (· ++ ·) .empty

@[simp] theorem joinBytes_nil : joinBytes [] = .empty := rfl

@[simp] theorem joinBytes_cons (b : ByteArray) (rest : List ByteArray) :
    joinBytes (b :: rest) = b ++ joinBytes rest := rfl

/-- Chunks put together in two lots are the two lots put together. -/
@[simp] theorem joinBytes_append (as bs : List ByteArray) :
    joinBytes (as ++ bs) = joinBytes as ++ joinBytes bs := by
  induction as with
  | nil => simp
  | cons a rest ih => simp [ih, ByteArray.append_assoc]

/-- A byte string that was handed to a sink, and whether the sink took it. -/
structure Attempt where
  bytes : ByteArray
  taken : Bool

/-- What a sink has taken. -/
def takenBytes (attempts : List Attempt) : ByteArray :=
  joinBytes ((attempts.filter (·.taken)).map (·.bytes))

@[simp] theorem takenBytes_nil : takenBytes [] = .empty := rfl

@[simp] theorem takenBytes_append (as bs : List Attempt) :
    takenBytes (as ++ bs) = takenBytes as ++ takenBytes bs := by
  simp [takenBytes]

/-- A byte string that was handed to a sink, chunk by chunk. -/
structure Parcel where
  chunks : List ByteArray
  taken : Bool

namespace Parcel

def attempt (p : Parcel) : Attempt := ⟨joinBytes p.chunks, p.taken⟩

/-- The chunks that the sink has got. -/
def takenChunks (parcels : List Parcel) : List ByteArray :=
  (parcels.filter (·.taken)).flatMap (·.chunks)

/-- What the sink has taken are the chunks it has got. -/
theorem takenBytes_attempts (parcels : List Parcel) :
    takenBytes (parcels.map attempt) = joinBytes (takenChunks parcels) := by
  induction parcels with
  | nil => rfl
  | cons p rest ih =>
      unfold takenBytes takenChunks at ih ⊢
      cases ht : p.taken with
      | true => simp [attempt, ht, ih]
      | false => simp [attempt, ht, ih]

/-- Chunks are lost, but none is added and none changes its place. -/
theorem takenChunks_sublist (parcels : List Parcel) :
    (takenChunks parcels).Sublist (parcels.flatMap (·.chunks)) := by
  induction parcels with
  | nil => exact .slnil
  | cons p rest ih =>
      unfold takenChunks at ih ⊢
      rw [List.flatMap_cons, List.filter_cons]
      split
      · rw [List.flatMap_cons]
        exact (List.Sublist.refl _).append ih
      · exact ih.trans (List.sublist_append_right _ _)

/-- A sink that took every parcel has got every chunk. -/
theorem takenChunks_eq {parcels : List Parcel} (h : ∀ p ∈ parcels, p.taken = true) :
    takenChunks parcels = parcels.flatMap (·.chunks) := by
  unfold takenChunks
  rw [List.filter_eq_self.2 h]

end Parcel

-- ============================================================== sinks

namespace Sink

variable {W : Type}

/-- The sink takes whatever it is handed. -/
def TakesAll (k : Sink W) : Prop := ∀ bytes w, (k.write bytes w).1 = .ok ()

/-- No call of the sink fails. -/
structure Steady (k : Sink W) : Prop where
  write : k.TakesAll
  flush : ∀ w, (k.flush w).1 = .ok ()
  close : ∀ w, (k.close w).1 = .ok ()

/-- The world remembers what was handed to the sink, in `log`. -/
structure Logs (k : Sink W) (log : W → List Attempt) : Prop where
  write : ∀ bytes w,
    log (k.write bytes w).2 = log w ++ [⟨bytes, (k.write bytes w).1.isOk⟩]
  flush : ∀ w, log (k.flush w).2 = log w
  close : ∀ w, log (k.close w).2 = log w

end Sink

/-- Of two calls the first error is told, so none is told only if there is none. -/
theorem firstError_ok {a b : Except LogError Unit} (ha : a = .ok ()) : firstError a b = b := by
  rw [ha]
  rfl

/-- If either has failed, so have both together. -/
theorem firstError_error {a b : Except LogError Unit}
    (h : (∃ e, a = .error e) ∨ ∃ e, b = .error e) : ∃ e, firstError a b = .error e := by
  cases a with
  | ok =>
      obtain ⟨e, he⟩ | ⟨e, he⟩ := h
      · cases he
      · exact ⟨e, he⟩
  | error e => exact ⟨e, rfl⟩

namespace Manager

variable {W : Type}

-- ================================================================ moves

/-- What a manager is made with; no call changes it. -/
def settings (m : Manager) : String × Nat × Bool × Dict String :=
  (m.name, m.capacity, m.immediateFlush, m.attributes)

/-- The books of one operation, begun with the chunks `held` in the
buffer: the chunks `new` came in, the parcels were handed to the sink,
and the chunks `left` stay in the buffer. -/
structure Moves (k : Sink W) (log : W → List Attempt) (m : Manager) (w : W)
    (held new : List ByteArray) (out : Step W) (parcels : List Parcel)
    (left : List ByteArray) : Prop where
  chunks : held ++ new = parcels.flatMap (·.chunks) ++ left
  logged : log out.2.2 = log w ++ parcels.map Parcel.attempt
  buffer : out.2.1.buffer = joinBytes left
  fits : m.buffer.size ≤ m.capacity → out.2.1.buffer.size ≤ out.2.1.capacity
  written : out.2.1.bytesWritten
    = m.bytesWritten + (takenBytes (parcels.map Parcel.attempt)).size
  settings : out.2.1.settings = m.settings
  /-- A parcel that was refused is told of. -/
  told : (∃ p ∈ parcels, p.taken = false) → ∃ e, out.1 = .error e
  whole : k.TakesAll → ∀ p ∈ parcels, p.taken = true
  quiet : k.Steady → out.1 = .ok ()

namespace Moves

variable {k : Sink W} {log : W → List Attempt} {m m₁ m₂ : Manager} {w w₁ w₂ : W}
  {held new mid more left : List ByteArray} {r₁ r₂ : Except LogError Unit}
  {ps qs : List Parcel}

/-- Nothing happens. -/
theorem refl (hb : m.buffer = joinBytes held) :
    Moves k log m w held [] (.ok (), m, w) [] held where
  chunks := by simp
  logged := by simp
  buffer := hb
  fits := id
  written := by simp
  settings := rfl
  told := fun ⟨p, hp, _⟩ => by cases hp
  whole := fun _ p hp => by cases hp
  quiet := fun _ => rfl

/-- Two operations, one after the other. -/
theorem trans (h : Moves k log m w held new (r₁, m₁, w₁) ps mid)
    (h' : Moves k log m₁ w₁ mid more (r₂, m₂, w₂) qs left) :
    Moves k log m w held (new ++ more) (firstError r₁ r₂, m₂, w₂) (ps ++ qs) left where
  chunks := by
    rw [← List.append_assoc, h.chunks, List.append_assoc, h'.chunks, List.flatMap_append,
      List.append_assoc]
  logged := by
    have h₁ : log w₁ = _ := h.logged
    rw [List.map_append, ← List.append_assoc, ← h₁]
    exact h'.logged
  buffer := h'.buffer
  fits := fun hm => h'.fits (h.fits hm)
  written := by
    have h₁ : m₁.bytesWritten = _ := h.written
    have h₂ : m₂.bytesWritten = _ := h'.written
    show m₂.bytesWritten = _
    rw [h₂, h₁, List.map_append, takenBytes_append, ByteArray.size_append, Nat.add_assoc]
  settings := h'.settings.trans h.settings
  told := by
    rintro ⟨p, hp, hpt⟩
    rcases List.mem_append.1 hp with hp | hp
    · exact firstError_error (.inl (h.told ⟨p, hp, hpt⟩))
    · exact firstError_error (.inr (h'.told ⟨p, hp, hpt⟩))
  whole := by
    intro hk p hp
    rcases List.mem_append.1 hp with hp | hp
    · exact h.whole hk p hp
    · exact h'.whole hk p hp
  quiet := fun hk => (firstError_ok (h.quiet hk)).trans (h'.quiet hk)

/-- A last call of the sink, in which no bytes are handed over. -/
theorem followed (h : Moves k log m w held new (r₁, m₁, w₁) ps left)
    (hl : log w₂ = log w₁) (hm : m₂ = { m₁ with flushes := m₂.flushes })
    (hq : k.Steady → r₂ = .ok ()) :
    Moves k log m w held new (firstError r₁ r₂, m₂, w₂) ps left where
  chunks := h.chunks
  logged := hl.trans h.logged
  buffer := by
    rw [hm]
    exact h.buffer
  fits := by
    rw [hm]
    exact h.fits
  written := by
    rw [hm]
    exact h.written
  settings := by
    rw [hm]
    exact h.settings
  told := fun hp => firstError_error (.inl (h.told hp))
  whole := h.whole
  quiet := fun hk => (firstError_ok (h.quiet hk)).trans (hq hk)

end Moves

-- ============================================================ operations

variable {k : Sink W} {log : W → List Attempt} {m : Manager} {held : List ByteArray}

/-- All that is held goes over in one parcel, with what is new. -/
theorem moves_emit (hk : k.Logs log) {bytes : ByteArray} {new : List ByteArray} (w : W)
    (hm : m.buffer = .empty) (hb : bytes = joinBytes (held ++ new)) :
    ∃ taken, Moves k log m w held new (emit k bytes m w) [⟨held ++ new, taken⟩] [] := by
  have hlog := hk.write bytes w
  unfold emit
  split
  · next w' heq =>
    rw [heq] at hlog
    refine ⟨true, ?_⟩
    exact {
      chunks := by simp
      logged := by
        rw [List.map_singleton, Parcel.attempt, ← hb]
        exact hlog
      buffer := hm
      fits := id
      written := by simp [takenBytes, Parcel.attempt, hb]
      settings := rfl
      told := fun ⟨p, hp, ht⟩ => by
        rw [List.mem_singleton.1 hp] at ht
        cases ht
      whole := fun _ p hp => by rw [List.mem_singleton.1 hp]
      quiet := fun _ => rfl }
  · next e w' heq =>
    rw [heq] at hlog
    refine ⟨false, ?_⟩
    -- a sink that refuses something does not take all
    have hfails : ¬ k.TakesAll := by
      intro hall
      have := hall bytes w
      rw [heq] at this
      cases this
    exact {
      chunks := by simp
      logged := by
        rw [List.map_singleton, Parcel.attempt, ← hb]
        exact hlog
      buffer := hm
      fits := id
      written := by simp [takenBytes, Parcel.attempt]
      settings := rfl
      told := fun _ => ⟨e, rfl⟩
      whole := fun hall => absurd hall hfails
      quiet := fun hall => absurd hall.write hfails }

/-- The buffer goes over as a whole, or there is nothing in it. -/
theorem moves_drainBuffer (hk : k.Logs log) (w : W) (hb : m.buffer = joinBytes held) :
    ∃ ps left, Moves k log m w held [] (drainBuffer k m w) ps left := by
  unfold drainBuffer
  split
  · exact ⟨[], held, .refl hb⟩
  · obtain ⟨taken, h⟩ : ∃ taken, Moves k log { m with buffer := .empty } w held []
        (emit k m.buffer { m with buffer := .empty } w) [⟨held ++ [], taken⟩] [] :=
      moves_emit hk w rfl (hb.trans (by simp))
    exact ⟨_, [], { h with fits := fun _ => h.fits (Nat.zero_le _) }⟩

/-- To hand bytes over leaves the buffer alone. -/
theorem buffer_emit (k : Sink W) (bytes : ByteArray) (m : Manager) (w : W) :
    (emit k bytes m w).2.1.buffer = m.buffer := by
  unfold emit
  split <;> rfl

/-- Whatever the sink answers, the buffer is empty then. -/
theorem buffer_drainBuffer (k : Sink W) (m : Manager) (w : W) :
    (drainBuffer k m w).2.1.buffer = .empty := by
  unfold drainBuffer
  split
  · next h => exact ByteArray.size_eq_zero_iff.1 (by simpa [ByteArray.isEmpty] using h)
  · exact buffer_emit k m.buffer _ w

/-- A push moves all that is held. -/
theorem moves_push (hk : k.Logs log) (w : W) (hb : m.buffer = joinBytes held) :
    ∃ ps left, Moves k log m w held [] (push k m w) ps left := by
  obtain ⟨ps, left, h⟩ := moves_drainBuffer hk w hb
  exact ⟨ps, left, h.followed (hk.flush _) rfl fun hs => hs.flush _⟩

/-- A push leaves nothing in the buffer, even if the sink fails. -/
theorem buffer_push (k : Sink W) (m : Manager) (w : W) :
    (push k m w).2.1.buffer = .empty := buffer_drainBuffer k m w

/-- There is room for a chunk, or the buffer is empty. -/
theorem moves_makeRoom (hk : k.Logs log) (bytes : ByteArray) (w : W)
    (hb : m.buffer = joinBytes held) :
    ∃ ps left, Moves k log m w held [] (makeRoom k bytes m w) ps left
      ∧ ((makeRoom k bytes m w).2.1.buffer = .empty
        ∨ bytes.size ≤ m.capacity - (makeRoom k bytes m w).2.1.buffer.size) := by
  unfold makeRoom
  split
  · obtain ⟨ps, left, h⟩ := moves_drainBuffer hk w hb
    exact ⟨ps, left, h, .inl (buffer_drainBuffer k m w)⟩
  · next hroom =>
    exact ⟨[], held, .refl hb, .inr (Nat.le_of_not_lt hroom)⟩

/-- A chunk for which there is room, or which comes to an empty buffer,
goes behind what is held. -/
theorem moves_accept (hk : k.Logs log) (bytes : ByteArray) (w : W)
    (hb : m.buffer = joinBytes held)
    (hroom : m.buffer = .empty ∨ bytes.size ≤ m.capacity - m.buffer.size) :
    ∃ ps left, Moves k log m w held [bytes] (accept k bytes m w) ps left := by
  unfold accept
  split
  · next hlarge =>
    -- a chunk that is larger than the buffer finds it empty
    have hempty : m.buffer = .empty := by
      rcases hroom with h | h
      · exact h
      · omega
    have hbytes : bytes = joinBytes (held ++ [bytes]) := by
      rw [joinBytes_append, ← hb, hempty]
      simp
    obtain ⟨taken, h⟩ := moves_emit hk w hempty hbytes
    exact ⟨_, _, h⟩
  · next hsmall =>
    refine ⟨[], held ++ [bytes], ?_⟩
    exact {
      chunks := by simp
      logged := by simp
      buffer := by simp [hb]
      fits := by
        intro hfits
        show (m.buffer ++ bytes).size ≤ m.capacity
        rw [ByteArray.size_append]
        rcases hroom with h | h
        · rw [h, ByteArray.size_empty]
          omega
        · omega
      written := by simp
      settings := rfl
      told := fun ⟨p, hp, _⟩ => by cases hp
      whole := fun _ p hp => by cases hp
      quiet := fun _ => rfl }

/-- A write on an open manager: room is made, the chunk comes in, and the
buffer is pushed if it is to be. -/
theorem moves_write (hk : k.Logs log) (bytes : ByteArray) (endOfBatch : Bool) (w : W)
    (hopen : m.closed = false) (hb : m.buffer = joinBytes held) :
    ∃ ps left, Moves k log m w held [bytes] (write k bytes endOfBatch m w) ps left := by
  obtain ⟨ps₁, left₁, h₁, hroom⟩ := moves_makeRoom hk bytes w hb
  unfold write
  simp only [hopen, Bool.false_eq_true, if_false]
  rcases hmade : makeRoom k bytes m w with ⟨r₁, m₁, w₁⟩
  rw [hmade] at h₁ hroom
  have hcap : m₁.capacity = m.capacity := congrArg (·.2.1) h₁.settings
  rw [← hcap] at hroom
  obtain ⟨ps₂, left₂, h₂⟩ := moves_accept hk bytes w₁ h₁.buffer hroom
  dsimp only
  rcases haccepted : accept k bytes m₁ w₁ with ⟨r₂, m₂, w₂⟩
  rw [haccepted] at h₂
  dsimp only
  have h := h₁.trans h₂
  by_cases hpush : (m₂.immediateFlush || endOfBatch) = true
  · rw [if_pos hpush]
    obtain ⟨ps₃, left₃, h₃⟩ := moves_push hk w₂ h₂.buffer
    exact ⟨_, _, h.trans h₃⟩
  · rw [if_neg hpush]
    exact ⟨_, _, h.trans (.refl h₂.buffer)⟩

/-- A flush pushes what is held, or does nothing on a closed manager. -/
theorem moves_flush (hk : k.Logs log) (w : W) (hb : m.buffer = joinBytes held) :
    ∃ ps left, Moves k log m w held [] (flush k m w) ps left := by
  unfold flush
  split
  · exact ⟨[], held, .refl hb⟩
  · exact moves_push hk w hb

theorem moves_close (hk : k.Logs log) (w : W) (hb : m.buffer = joinBytes held) :
    ∃ ps left, Moves k log m w held [] (close k m w) ps left := by
  unfold close
  split
  · exact ⟨[], held, .refl hb⟩
  · obtain ⟨ps, left, h⟩ := moves_push (m := { m with closed := true }) hk w hb
    exact ⟨ps, left, { h.followed (hk.close _) rfl fun hs => hs.close _ with }⟩

-- ============================================================= closing

theorem closed_emit (k : Sink W) (bytes : ByteArray) (m : Manager) (w : W) :
    (emit k bytes m w).2.1.closed = m.closed := by
  unfold emit
  split <;> rfl

theorem closed_drainBuffer (k : Sink W) (m : Manager) (w : W) :
    (drainBuffer k m w).2.1.closed = m.closed := by
  unfold drainBuffer
  split
  · rfl
  · exact closed_emit k _ _ w

/-- A push does not close the manager. -/
theorem closed_push (k : Sink W) (m : Manager) (w : W) :
    (push k m w).2.1.closed = m.closed := closed_drainBuffer k m w

/-- Writing leaves a manager open. -/
theorem closed_write (k : Sink W) (bytes : ByteArray) (endOfBatch : Bool) (m : Manager)
    (w : W) : (write k bytes endOfBatch m w).2.1.closed = m.closed := by
  have hroom : (makeRoom k bytes m w).2.1.closed = m.closed := by
    unfold makeRoom
    split
    · exact closed_drainBuffer k m w
    · rfl
  have haccept : ∀ (m : Manager) (w : W), (accept k bytes m w).2.1.closed = m.closed := by
    intro m w
    unfold accept
    split
    · exact closed_emit k bytes m w
    · rfl
  unfold write
  split
  · rfl
  · dsimp only
    split
    · rw [closed_push, haccept, hroom]
    · rw [haccept, hroom]

theorem closed_flush (k : Sink W) (m : Manager) (w : W) :
    (flush k m w).2.1.closed = m.closed := by
  unfold flush
  split
  · rfl
  · exact closed_push k m w

/-- A close does, whatever the sink answers. -/
theorem closed_close (k : Sink W) (m : Manager) (w : W) :
    (close k m w).2.1.closed = true := by
  unfold close
  split
  · next h => exact h
  · exact closed_push k _ w

/-- What is pushed and then closed has nothing left in the buffer. -/
theorem buffer_close (k : Sink W) (w : W) (hopen : m.closed = false) :
    (close k m w).2.1.buffer = .empty := by
  unfold close
  rw [hopen]
  exact buffer_push k _ w

end Manager

end LogPipeline
